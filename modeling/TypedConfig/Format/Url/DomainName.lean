import TypedConfig.Format.Url.DomainImage
import TypedConfig.Format.Url.Percent
import TypedConfig.Format.Url.Punycode
import TypedConfig.Text.CombiningMark
import TypedConfig.Text.Direction
import TypedConfig.Text.Joining
import TypedConfig.Text.Normalization
/-!
Domain names of any characters, and the ASCII names that stand for them. A name is settled first:
its characters are mapped and the result is normalized. Each label between its points then has to
obey the rules for marks, joiners, length and direction, a label in Punycode by what it stands for.
-/
namespace TypedConfig.Url

/-- Whether a character is ASCII. -/
def isAscii (c : Char) : Bool := c.toNat < 0x80

/-- ASCII characters that no domain name holds. -/
def isForbiddenInDomain (c : Char) : Bool :=
  isControl c ||
    [' ', '#', '%', '/', ':', '<', '>', '?', '@', '[', '\\', ']', '^', '|'].contains c

/-- The mapped and normalized form of a text, unless that holds a character that no name may
hold. -/
def settle? (cs : List Char) : Option (List Char) :=
  match cs.mapM domainImage? with
  | none => none
  | some images =>
    let settled := Text.normalize images.flatten
    if settled.any isForbiddenInDomain then none else some settled

/-! ### Labels -/

/-- What every label in Punycode begins with. -/
def punycodeMark : List Char := ['x', 'n', '-', '-']

/-- The most characters of Punycode that are decoded. -/
def maxPunycode : Nat := 2000

/-- The most characters of a label that is not ASCII. -/
def maxLabel : Nat := 1000

/-- The label that a settled one means: itself, or what its Punycode stands for, which has to be a
settled text that is not ASCII. -/
def meantLabel? (label : List Char) : Option (List Char) :=
  if label.take 4 == punycodeMark then
    if maxPunycode < (label.drop 4).length then none
    else
      (Punycode.decode (label.drop 4)).filter fun meant =>
        !meant.all isAscii && settle? meant == some meant
  else some label

/-- Whether the nearest character that is not transparent joins in one of the given ways. -/
def joins (ways : List Text.Joining) (cs : List Char) : Bool :=
  (cs.dropWhile (Text.joining · == .transparent)).head?.any fun c => ways.contains (Text.joining c)

/-- Whether a character is invisible but tells its neighbours to join, or not to. -/
def isJoiner (c : Char) : Bool := c == '\u200C' || c == '\u200D'

/-- Whether a joiner has an effect where it stands: after a virama, or, if it keeps letters apart,
between two that would join. The text before it is given backwards. -/
def joinerFits (before : List Char) (joiner : Char) (after : List Char) : Bool :=
  before.head?.any (Text.combiningClass · == Text.viramaClass) ||
    (joiner == '\u200C' && joins [.left, .dual] before && joins [.right, .dual] after)

/-- Whether all joiners of a text fit. The text before it is given backwards. -/
def joinersFit (before : List Char) : List Char → Bool
  | [] => true
  | c :: rest =>
    (!isJoiner c || joinerFits before c rest) && joinersFit (c :: before) rest

/-- Whether a label, read as what it means, may stand in a name. All ASCII labels may. -/
def isLabel (meant : List Char) : Bool :=
  if meant.all isAscii then true
  else !meant.head?.any Text.isCombiningMark && joinersFit [] meant && meant.length ≤ maxLabel

/-! ### Direction -/

/-- What a label from left to right may hold after its first character. -/
def insideLeftToRight : List Text.Direction :=
  [.leftToRight, .europeanNumber, .europeanSeparator, .commonSeparator, .europeanTerminator,
    .otherNeutral, .boundaryNeutral, .nonspacingMark]

/-- What a label from right to left may hold after its first character. -/
def insideRightToLeft : List Text.Direction :=
  [.rightToLeft, .arabicLetter, .arabicNumber, .europeanNumber, .europeanSeparator,
    .commonSeparator, .europeanTerminator, .otherNeutral, .boundaryNeutral, .nonspacingMark]

/-- Whether the characters of a label run one way: it begins with a letter, ends in a letter or a
digit before any marks, and from right to left does not hold both kinds of digits. -/
def runsOneWay (label : List Char) : Bool :=
  match label.map Text.direction with
  | [] => true
  | first :: rest =>
    match first, rest.reverse.dropWhile (· == .nonspacingMark) with
    | .leftToRight, [] | .rightToLeft, [] | .arabicLetter, [] => true
    | .leftToRight, last :: inner =>
      [.leftToRight, .europeanNumber].contains last && inner.all insideLeftToRight.contains
    | .rightToLeft, last :: inner | .arabicLetter, last :: inner =>
      [.rightToLeft, .arabicLetter, .europeanNumber, .arabicNumber].contains last &&
        inner.all insideRightToLeft.contains &&
        !((last :: inner).contains .europeanNumber && (last :: inner).contains .arabicNumber)
    | _, _ => false

/-- Whether the labels of a name can be told apart on a line: all run one way each, or none holds a
character from right to left. -/
def directionsAgree (labels : List (List Char)) : Bool :=
  if labels.any (·.any Text.runsRightToLeft) then labels.all runsOneWay else true

/-! ### Names -/

/-- The ASCII text of a settled label. -/
def asciiLabel (label : List Char) : List Char :=
  if label.all isAscii then label else punycodeMark ++ Punycode.encode label

/-- The ASCII form of a domain name. -/
def asciiDomain? (cs : List Char) : Option (List Char) := do
  let labels := Text.splitOn '.' (← settle? cs)
  let meant ← labels.mapM meantLabel?
  if meant.all isLabel && directionsAgree meant then
    some (Text.joinWith ['.'] (labels.map asciiLabel))
  else none

end TypedConfig.Url
