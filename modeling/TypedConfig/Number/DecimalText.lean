import TypedConfig.Number.Digits
import TypedConfig.Number.Rounding
/-!
Decimal text of a binary floating-point number: an optional sign, digits with an optional point
among them, and an optional exponent; or one of the words for infinity and for no number.
-/
namespace TypedConfig.Number

/-- Unsigned decimal text taken apart: the digits before and after the point, and the exponent. -/
structure DecimalText where
  whole : List Char
  fraction : List Char
  exponent : Int
deriving Repr, DecidableEq

namespace DecimalText

/-- Reads an exponent: an optional sign and at least one digit, and nothing else. -/
def readExponent (cs : List Char) : Option Int :=
  let (negative, ds) := match cs with
    | '-' :: ds => (true, ds)
    | '+' :: ds => (false, ds)
    | ds => (false, ds)
  if ds.isEmpty || !ds.all Char.isDigit then none
  else some (if negative then -(digitsValue ds : Int) else digitsValue ds)

/-- Reads digits with an optional point, at least one digit in all, and an optional exponent. -/
def read (cs : List Char) : Option DecimalText :=
  let whole := cs.takeWhile Char.isDigit
  let rest := cs.dropWhile Char.isDigit
  let (fraction, rest) := match rest with
    | '.' :: ds => (ds.takeWhile Char.isDigit, ds.dropWhile Char.isDigit)
    | _ => ([], rest)
  if whole.isEmpty && fraction.isEmpty then none
  else match rest with
    | [] => some ⟨whole, fraction, 0⟩
    | c :: ds =>
      if c = 'e' || c = 'E' then (readExponent ds).map (⟨whole, fraction, ·⟩) else none

/-- The number nearest to the value of the text. An exponent so large or so small that the digits
cannot make up for it gives infinity or zero at once. -/
def toBinary64 (negative : Bool) (t : DecimalText) : Binary64 :=
  let ds := t.whole ++ t.fraction
  let value := digitsValue ds
  let exponent := t.exponent - t.fraction.length
  if value = 0 || exponent + ds.length < -324 then .ofMagnitude negative 0
  else if 310 < exponent then .ofMagnitude negative Binary64.infinite
  else if exponent < 0 then .nearest negative value (Nat.pow 10 (-exponent).toNat)
  else .nearest negative (value * Nat.pow 10 exponent.toNat) 1

end DecimalText

namespace Binary64

/-- Reads decimal text with an optional sign. -/
def read (cs : List Char) : Option Binary64 :=
  let (negative, rest) := match cs with
    | '-' :: rest => (true, rest)
    | '+' :: rest => (false, rest)
    | rest => (false, rest)
  match DecimalText.read rest with
  | some t => some (t.toBinary64 negative)
  | none =>
    let word := String.ofList (rest.map Char.toLower)
    if word = "inf" || word = "infinity" then some (.ofMagnitude negative infinite)
    else if word = "nan" then some (.ofMagnitude negative (infinite + leadingBit / 2))
    else none

end Binary64

end TypedConfig.Number
