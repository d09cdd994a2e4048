import TypedConfig.Number.Radix
/-!
Hexadecimal digits in either case of letters.
-/
namespace TypedConfig.Number

/-- The value of a hexadecimal digit. -/
def hexValue? (c : Char) : Option Nat :=
  let n := c.toNat
  if '0' ≤ c && c ≤ '9' then some (n - 48)
  else if 'a' ≤ c && c ≤ 'f' then some (n - 87)
  else if 'A' ≤ c && c ≤ 'F' then some (n - 55)
  else none

/-- The number that hexadecimal digits denote; other characters are passed over. -/
def ofHex (cs : List Char) : Nat := ofRadix 16 (cs.filterMap hexValue?)

end TypedConfig.Number
