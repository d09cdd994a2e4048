/-!
Binary floating-point numbers of sixty-four bits. A number is a sign and a magnitude, the magnitude
being the other sixty-three bits of its encoding. Read as a natural number the magnitude grows with
the absolute value; at `infinite` it is infinity and above that it is no number.
-/
namespace TypedConfig.Number

/-- The bit above all magnitudes, which is the sign in the encoding of a number. -/
def Binary64.signBit : Nat := 0x8000000000000000

/-- A binary floating-point number. -/
structure Binary64 where
  negative : Bool
  magnitude : Nat
  magnitude_lt : magnitude < Binary64.signBit
deriving Repr, DecidableEq

namespace Binary64

/-- The bit above the fifty-two bits of a fraction: the unit of the exponent in a magnitude, and the
leading bit of a significand. -/
def leadingBit : Nat := 0x10000000000000

/-- The magnitude of infinity: all eleven exponent bits set, the fraction zero. -/
def infinite : Nat := 0x7FF * leadingBit

/-- The number with a sign and a magnitude; a magnitude out of range counts as infinity. -/
def ofMagnitude (negative : Bool) (magnitude : Nat) : Binary64 :=
  if h : magnitude < signBit then ⟨negative, magnitude, h⟩
  else ⟨negative, infinite, by decide⟩

/-- The sixty-four bits, the sign first. -/
def bits (x : Binary64) : Nat :=
  (if x.negative then signBit else 0) + x.magnitude

/-- Whether a number is neither infinite nor undefined. -/
def isFinite (x : Binary64) : Bool := x.magnitude < infinite

/-- Whether the encoding denotes no number. -/
def isNaN (x : Binary64) : Bool := infinite < x.magnitude

/-- Numerical equality: the two zeros are equal, and what is no number equals nothing. -/
def same (x y : Binary64) : Bool :=
  !x.isNaN && !y.isNaN &&
    ((x.magnitude == 0 && y.magnitude == 0) || x == y)

/-- A finite number is its significand times two to `unit - 1074`. -/
def significand (x : Binary64) : Nat :=
  if x.magnitude < leadingBit then x.magnitude else x.magnitude % leadingBit + leadingBit

/-- How often the smallest positive number is doubled to give the unit of the significand. -/
def unit (x : Binary64) : Nat := x.magnitude / leadingBit - 1

end Binary64

end TypedConfig.Number
