/-!
Whole numbers as digits in a given base, the greatest first.
-/
namespace TypedConfig.Number

/-- The number that digits denote in a base. -/
def ofRadix (base : Nat) (ds : List Nat) : Nat :=
  ds.foldl (fun n d => base * n + d) 0

/-- The digits of a number in a base of at least two, without leading zeros; zero has none. -/
def toRadix (base : Nat) (n : Nat) : List Nat :=
  if n = 0 ∨ base < 2 then [] else toRadix base (n / base) ++ [n % base]
termination_by n
decreasing_by exact Nat.div_lt_self (by omega) (by omega)

end TypedConfig.Number
