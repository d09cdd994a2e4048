import TypedConfig.Number.Radix
/-!
Which strings of thirty-two bytes encode a point of the twisted Edwards curve
`-x² + y² = 1 + d x² y²` over the field of `2 ^ 255 - 19` elements. The bytes hold `y`, the least
byte first, and in the top bit the sign of `x`. A `y` not below the prime is reduced, and the sign
of a zero `x` is not looked at, so only the existence of `x` decides.
-/
namespace TypedConfig.Edwards25519

/-- The order of the field. -/
def prime : Nat := Nat.pow 2 255 - 19

/-- The coefficient `d`, which is -121665/121666. -/
def d : Nat := 37095705934669439343138083508754565189542113879843219016388785533085940283555

/-- A power modulo `m`, by squaring. -/
def powMod (m base exponent : Nat) : Nat :=
  if exponent = 0 then 1 % m
  else
    let half := powMod m (base * base % m) (exponent / 2)
    if exponent % 2 = 1 then half * base % m else half
termination_by exponent
decreasing_by exact Nat.div_lt_self (by omega) (by omega)

/-- Whether an element is a square, by Euler's criterion. -/
def isSquare (a : Nat) : Bool :=
  a % prime == 0 || powMod prime (a % prime) ((prime - 1) / 2) == 1

/-- Whether there is a point with the encoded `y`: `x² = (y² - 1) / (d y² + 1)` needs a solution,
and the quotient is a square just when the product is. -/
def isPoint (bytes : List UInt8) : Bool :=
  let y := Number.ofRadix 256 (bytes.reverse.map UInt8.toNat) % Nat.pow 2 255 % prime
  let square := y * y % prime
  isSquare ((square + (prime - 1)) * (d * square + 1))

end TypedConfig.Edwards25519
