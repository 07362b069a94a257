/-!
Binary64 floating-point numbers. A number is a sign and the 63 bits below it: eleven of exponent,
then fifty-two of fraction. Read as a whole number, those 63 bits grow with the value.
-/
namespace Spreadsheet

/-- The weight of the sign bit, two to the power of 63. -/
def Number.signWeight : Nat :=
  9223372036854775808

/-- A binary64 number, the values that are no number and their payloads included. -/
structure Number where
  negative : Bool
  magnitude : Fin Number.signWeight
deriving DecidableEq

namespace Number

/-- The weight of the lowest bit of the exponent, two to the power of 52. -/
def exponentWeight : Nat :=
  4503599627370496

/-- The magnitude of infinity; greater ones are no number. -/
def infinity : Nat :=
  2047 * exponentWeight

def isNaN (x : Number) : Bool :=
  infinity < x.magnitude

def isInfinite (x : Number) : Bool :=
  x.magnitude.val == infinity

def isFinite (x : Number) : Bool :=
  x.magnitude < infinity

/-- The number with the other sign. -/
def neg (x : Number) : Number :=
  { x with negative := !x.negative }

/-- The number without its sign. -/
def abs (x : Number) : Number :=
  { x with negative := false }

/-- Numeric equality: the two zeros are equal, and what is no number equals nothing. -/
def same (x y : Number) : Bool :=
  !x.isNaN && !y.isNaN &&
    (x == y || (x.magnitude.val == 0 && y.magnitude.val == 0))

/-- All 64 bits, the sign on top. -/
def toBits (x : Number) : Nat :=
  x.negative.toNat * signWeight + x.magnitude

/-- The number with the given 64 bits. -/
def ofBits (bits : Nat) : Number :=
  { negative := bits / signWeight % 2 == 1
    magnitude := ⟨bits % signWeight, Nat.mod_lt _ (by decide)⟩ }

theorem neg_neg (x : Number) : x.neg.neg = x := by
  simp [neg]

theorem ofBits_toBits (x : Number) : ofBits x.toBits = x := by
  obtain ⟨negative, magnitude, hlt⟩ := x
  have hmod (sign : Nat) : (sign * signWeight + magnitude) % signWeight = magnitude := by
    rw [Nat.mul_add_mod_self_right, Nat.mod_eq_of_lt hlt]
  have hdiv (sign : Nat) : (sign * signWeight + magnitude) / signWeight = sign := by
    rw [Nat.mul_comm, Nat.mul_add_div (by decide), Nat.div_eq_of_lt hlt, Nat.add_zero]
  simp only [ofBits, toBits, hmod, hdiv]
  cases negative <;> rfl

end Number
end Spreadsheet
