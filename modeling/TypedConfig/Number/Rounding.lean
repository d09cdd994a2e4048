import TypedConfig.Number.Binary64
/-!
The binary floating-point number nearest to a quotient, a tie going to the even significand.

Everything is counted in units of the smallest positive number, two to minus 1074. A quotient of
more than fifty-three bits in these units loses its low bits, a smaller one none, so subnormal
numbers need no case of their own.
-/
namespace TypedConfig.Number

/-- The whole number nearest to a quotient, a tie going to the even one. -/
def roundHalfEven (num den : Nat) : Nat :=
  let q := num / den
  let twice := 2 * (num % den)
  if den < twice || (twice == den && q % 2 == 1) then q + 1 else q

/-- The magnitude of the binary floating-point number nearest to `num / den`. -/
def nearestMagnitude (num den : Nat) : Nat :=
  let scaled := num * Nat.pow 2 1074
  let units := scaled / den
  let dropped := if units = 0 then 0 else Nat.log2 units + 1 - 53
  dropped * Binary64.leadingBit + roundHalfEven scaled (den * Nat.pow 2 dropped)

namespace Binary64

/-- The number nearest to a quotient; beyond the largest finite number it is infinity. -/
def nearest (negative : Bool) (num den : Nat) : Binary64 :=
  ofMagnitude negative (min infinite (nearestMagnitude num den))

/-- The number nearest to an integer. -/
def ofInteger (n : Int64) : Binary64 :=
  nearest (n.toInt < 0) n.toInt.natAbs 1

end Binary64

end TypedConfig.Number
