import TypedConfig.Number.Binary64
import TypedConfig.Number.Digits
/-!
The fewest decimal digits that read back as a given binary floating-point number.

The numbers that round to a finite one form an interval around it, whose ends belong to it when the
significand is even. For one digit, two digits and so on, the two neighbours of the number on the
decimal grid of that many digits are tried; the first grid with a neighbour in the interval gives
the digits, and of two such neighbours the nearer is taken. Which one that is when the number lies
halfway between them is left to the format that writes the digits.
-/
namespace TypedConfig.Number

/-- Which of two equally near neighbours of an absolute value is taken. -/
inductive TieRule where
  | toEven
  | up
deriving Repr, DecidableEq

/-- Whether the lower of the neighbours `lower` and `lower + 1` is taken. -/
def TieRule.takesLower : TieRule → (lower : Nat) → Bool
  | toEven, lower => lower % 2 == 0
  | up, _ => false

/-- Decimal digits behind a point that stands `point` places to the right of their front:
the value is `0.d₁d₂… × 10 ^ point`. -/
structure PlacedDigits where
  digits : List Char
  point : Int
deriving Repr, DecidableEq

/-- The place of the point: the least `k` with `num / den < 10 ^ k`. -/
def pointPlace (num den : Nat) : Int :=
  if den ≤ num then (digits (num / den)).length
  else 1 - ((digits ((den + num - 1) / num - 1)).length : Int)

/-- Three numbers over one denominator: a value and the ends of the interval that rounds to it. -/
structure RoundingInterval where
  low : Nat
  value : Nat
  high : Nat
  den : Nat
  closed : Bool

namespace RoundingInterval

/-- The interval of a finite number. Below the least significand of a binade the grid is twice as
fine, so the lower end is nearer there. -/
def ofBinary64 (x : Binary64) : RoundingInterval :=
  let c := x.significand
  let below := if c = Binary64.leadingBit && 0 < x.unit then 1 else 2
  let scale := Nat.pow 2 x.unit
  { low := (4 * c - below) * scale
    value := 4 * c * scale
    high := (4 * c + 2) * scale
    den := 4 * Nat.pow 2 1074
    closed := c % 2 == 0 }

/-- Whether `t * up / down` lies in the interval. -/
def covers (r : RoundingInterval) (up down t : Nat) : Bool :=
  let scaled := t * up * r.den
  if r.closed then r.low * down ≤ scaled && scaled ≤ r.high * down
  else r.low * down < scaled && scaled < r.high * down

/-- The better neighbour of the value on the grid of step ten to `step`, if one of the two is in the
interval. -/
def onGrid (r : RoundingInterval) (tie : TieRule) (step : Int) : Option Nat :=
  let up := Nat.pow 10 step.toNat
  let down := Nat.pow 10 (-step).toNat
  let lower := r.value * down / (r.den * up)
  let upper := lower + 1
  match r.covers up down lower, r.covers up down upper with
  | true, true =>
    let twice := 2 * (r.value * down)
    let middle := (lower + upper) * (r.den * up)
    some (if twice < middle || (twice == middle && tie.takesLower lower) then lower else upper)
  | true, false => some lower
  | false, true => some upper
  | false, false => none

end RoundingInterval

/-- The fewest digits that read back as the absolute value of a finite number other than zero.
Seventeen digits always suffice. -/
def Binary64.shortestDigits (tie : TieRule) (x : Binary64) : PlacedDigits :=
  let r := RoundingInterval.ofBinary64 x
  let point := pointPlace r.value r.den
  let found := (List.range 17).findSome? fun n =>
    let step := point - (n + 1 : Nat)
    (r.onGrid tie step).map fun t => (t, step)
  match found with
  | none => ⟨['0'], 1⟩
  | some (t, step) =>
    let ds := digits t
    ⟨(ds.reverse.dropWhile (· == '0')).reverse, step + ds.length⟩

end TypedConfig.Number
