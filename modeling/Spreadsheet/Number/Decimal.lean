import Spreadsheet.Number.Basic
import Spreadsheet.Text.Digits

/-!
Reading decimals. A fraction of whole numbers becomes the nearest number; of two equally near
ones the even, and infinity past the largest.
-/
namespace Spreadsheet.Number

/-- The quotient to the nearest whole number; a half goes to the even neighbour. -/
def divNearest (n d : Nat) : Nat :=
  if 2 * (n % d) < d ∨ (2 * (n % d) = d ∧ n / d % 2 = 0) then n / d else n / d + 1

/-- The magnitude nearest to `n / d`. Magnitudes are spaced `2 ^ (shift - 1074)` apart around it,
where `shift` leaves a quotient of at most 53 binary digits. -/
def nearestMagnitude (n d : Nat) : Nat :=
  let scaled := n * Nat.pow 2 1074
  let shift := (scaled / d).log2 + 1 - 53
  min (shift * exponentWeight + divNearest scaled (d * Nat.pow 2 shift)) infinity

theorem nearestMagnitude_lt (n d : Nat) : nearestMagnitude n d < signWeight := by
  have hle : nearestMagnitude n d ≤ infinity := Nat.min_le_right _ _
  exact Nat.lt_of_le_of_lt hle (by decide)

/-- The number nearest to `n / d`. -/
def ofRatio (n d : Nat) : Number :=
  { negative := false, magnitude := ⟨nearestMagnitude n d, nearestMagnitude_lt n d⟩ }

/-- The number nearest to a whole number. -/
def ofNat (n : Nat) : Number :=
  ofRatio n 1

/-- The number that digits with an optional point and further digits stand for. -/
def ofDecimalText (s : List Char) : Number :=
  let whole := s.takeWhile Char.isDigit
  let fraction := (s.dropWhile Char.isDigit).drop 1
  ofRatio (Text.digitsValue 0 (whole ++ fraction)) (Nat.pow 10 fraction.length)

end Spreadsheet.Number
