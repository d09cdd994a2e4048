import TypedConfig.Number.Hexadecimal
import TypedConfig.Text.Split
/-!
Properties of characters, tabulated by code point. A table is written as words of hexadecimal
numbers between blanks and line ends: ranges of code points, runs of them that are all moved by one
distance, or code points each with the sequence of code points that belongs to it.
-/
namespace TypedConfig.Text

/-- The words of a table. -/
def words (table : String) : List (List Char) :=
  (splitOn ' ' (table.toList.map fun c => if c = '\n' then ' ' else c)).filter (!·.isEmpty)

/-! ### Ranges -/

/-- Consecutive code points, from the first to the last. -/
structure CodeRange where
  first : Nat
  last : Nat
deriving Repr, DecidableEq

/-- Whether a code point is in a range. -/
def CodeRange.contains (r : CodeRange) (n : Nat) : Bool := r.first ≤ n && n ≤ r.last

/-- Reads ranges: `41-5A`, or `41` for a single code point. -/
def codeRanges (table : String) : List CodeRange :=
  (words table).filterMap fun word =>
    match (splitOn '-' word).map Number.ofHex with
    | [n] => some ⟨n, n⟩
    | [first, last] => some ⟨first, last⟩
    | _ => none

/-- Whether a character is in one of some ranges. -/
def inRanges (ranges : List CodeRange) (c : Char) : Bool := ranges.any (·.contains c.toNat)

/-! ### Runs that are moved -/

/-- Code points at equal steps in a range, with the image of the first. -/
structure CodeShift where
  range : CodeRange
  step : Nat
  image : Nat
deriving Repr, DecidableEq

/-- The image of a code point in a run: as far from the image of the first as it is from the
first. -/
def CodeShift.image? (s : CodeShift) (n : Nat) : Option Nat :=
  let distance := n - s.range.first
  if s.range.contains n && distance % s.step == 0 then some (s.image + distance) else none

/-- Reads runs of one step: `41-5A-61` has the first and the last code point and the image of the
first. -/
def codeShifts (step : Nat) (table : String) : List CodeShift :=
  (words table).filterMap fun word =>
    match (splitOn '-' word).map Number.ofHex with
    | [first, last, image] => some ⟨⟨first, last⟩, step, image⟩
    | _ => none

/-! ### Sequences -/

/-- Reads sequences: `A8: 20+308 20 61` gives them to U+00A8 and the code points after it. -/
def codeMap (table : String) : List (Nat × List Nat) :=
  let read (state : Nat × List (Nat × List Nat)) (word : List Char) : Nat × List (Nat × List Nat) :=
    if word.getLast? == some ':' then (Number.ofHex word, state.2)
    else (state.1 + 1, (state.1, (splitOn '+' word).map Number.ofHex) :: state.2)
  ((words table).foldl read (0, [])).2.reverse

end TypedConfig.Text
