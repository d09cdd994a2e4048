import TypedConfig.Number.Shortest
/-!
How a binary floating-point number is laid out as text: the shortest digits, either with the point
in its place and at least one digit on both sides of it, or with an exponent.
-/
namespace TypedConfig.Number

/-- The places of the point for which a layout writes no exponent, where `none` sets no bound, and
the choice between two shortest texts that are equally near. -/
structure FloatLayout where
  leastPoint : Option Int
  greatestPoint : Option Int
  tie : TieRule
deriving Repr, DecidableEq

namespace FloatLayout

/-- Source text has no exponents: the point always stands in its place. A half goes up. -/
def source : FloatLayout := ⟨none, none, .up⟩

/-- JSON text has the point in its place from 1e-5 up to, but not including, 1e16. A half goes to
the even neighbour. -/
def json : FloatLayout := ⟨some (-4), some 16, .toEven⟩

/-- Whether a number whose point has the given place is written without an exponent. -/
def isPositional (layout : FloatLayout) (point : Int) : Bool :=
  layout.leastPoint.all (· ≤ point) && layout.greatestPoint.all (point ≤ ·)

end FloatLayout

namespace PlacedDigits

/-- The digits with the point in its place. -/
def positional (p : PlacedDigits) : List Char :=
  if p.point ≤ 0 then '0' :: '.' :: (List.replicate (-p.point).toNat '0' ++ p.digits)
  else
    let before := p.point.toNat
    if p.digits.length ≤ before then
      p.digits ++ List.replicate (before - p.digits.length) '0' ++ ['.', '0']
    else p.digits.take before ++ '.' :: p.digits.drop before

/-- One digit before the point, none after it if there are no more, and a signed exponent. -/
def scientific (p : PlacedDigits) : List Char :=
  let exponent := p.point - 1
  let sign := if exponent < 0 then '-' else '+'
  let mantissa := match p.digits with
    | [] => ['0']
    | d :: [] => [d]
    | d :: ds => d :: '.' :: ds
  mantissa ++ 'e' :: sign :: Number.digits exponent.natAbs

end PlacedDigits

/-- Writes a number in a layout. Neither layout is used for numbers that are not finite, which no
source text denotes. -/
def Binary64.write (layout : FloatLayout) (x : Binary64) : List Char :=
  let sign := if x.negative then ['-'] else []
  if x.isNaN then "NaN".toList
  else if !x.isFinite then sign ++ "inf".toList
  else if x.magnitude = 0 then sign ++ ['0', '.', '0']
  else
    let p := x.shortestDigits layout.tie
    sign ++ (if layout.isPositional p.point then p.positional else p.scientific)

end TypedConfig.Number
