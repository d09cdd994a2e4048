import TypedConfig.Text.CombiningClass
import TypedConfig.Text.Composition
/-!
Normalized text: of all sequences of bases and marks that mean the same, the one in which marks
stand in the order of their classes and as many as can be are joined with their base.
-/
namespace TypedConfig.Text

/-- Takes every composite apart into its two parts. -/
def takeApart (cs : List Char) : List Char :=
  cs.flatMap fun c =>
    match parts? c with
    | some (a, b) => [a, b]
    | none => [c]

/-- Takes every composite apart as far as possible: none is made in more than three steps. -/
def decompose (cs : List Char) : List Char := takeApart (takeApart (takeApart cs))

/-- Puts a character before a text whose marks are in order, after the marks at its front that are
of a lower class. -/
def placeMark (c : Char) : List Char → List Char
  | [] => [c]
  | d :: rest =>
    if combiningClass d ≠ 0 ∧ combiningClass d < combiningClass c then d :: placeMark c rest
    else c :: d :: rest

/-- Puts the marks after each base in the order of their classes, and those of one class in the
order in which they stood. -/
def orderMarks (cs : List Char) : List Char := cs.foldr placeMark []

/-- Joins a base with the characters after it. A character is out of reach behind a pending one,
which no composite has taken up, unless its class is higher. -/
def composeFrom (base : Char) (pending : List Char) : List Char → List Char
  | [] => base :: pending.reverse
  | c :: rest =>
    let reached := pending.head?.all fun d => combiningClass d < combiningClass c
    match if reached then composite? base c else none with
    | some joined => composeFrom joined pending rest
    | none =>
      if combiningClass c = 0 then base :: (pending.reverse ++ composeFrom c [] rest)
      else composeFrom base (c :: pending) rest

/-- The normalized form of a text. -/
def normalize (cs : List Char) : List Char :=
  match orderMarks (decompose cs) with
  | [] => []
  | c :: rest => composeFrom c [] rest

end TypedConfig.Text
