import TypedConfig.Number.Digits
/-!
Integers of sixty-four bits in decimal. A text denotes an integer only if its value is in range:
nothing wraps and nothing is clamped.
-/
namespace TypedConfig.Number

/-- The integer of sixty-four bits with a given value, if there is one. -/
def integer? (value : Int) : Option Int64 :=
  if -0x8000000000000000 ≤ value ∧ value < 0x8000000000000000 then some (Int64.ofInt value)
  else none

/-- Reads an optional minus sign and decimal digits. -/
def readInteger (cs : List Char) : Option Int64 :=
  match cs with
  | '-' :: ds => integer? (-(digitsValue ds : Int))
  | ds => integer? (digitsValue ds)

/-- Writes an integer in decimal. -/
def writeInteger (n : Int64) : List Char :=
  match n.toInt with
  | .ofNat k => digits k
  | .negSucc k => '-' :: digits (k + 1)

end TypedConfig.Number
