import TypedConfig.Diagnostic
/-!
Reading along a list of tokens. A cursor stands at a token and never leaves the last one, so that
there is always a token to report. A parser stops at the first thing that is wrong.
-/
namespace TypedConfig

/-- A place in the tokens of a file: the token at hand, and those after it. -/
structure Cursor where
  file : String
  current : Token
  later : List Token
deriving Repr, DecidableEq

namespace Cursor

/-- The kind of the token at hand. -/
def kind (c : Cursor) : Token.Kind := c.current.kind

/-- The kind of the token after that. -/
def nextKind (c : Cursor) : Token.Kind := (c.later.head?.getD c.current).kind

/-- The place of the token at hand. -/
def span (c : Cursor) : Span := c.current.span c.file

/-- Moves to the next token, if there is one. -/
def advance (c : Cursor) : Cursor :=
  match c.later with
  | [] => c
  | t :: later => { c with current := t, later }

end Cursor

/-- Reads something from the front of the tokens at hand. -/
abbrev Parser := StateT Cursor (Except Diagnostic)

namespace Parser

variable {α : Type}

/-- The kind of the token at hand. -/
def kind : Parser Token.Kind := return (← get).kind

/-- The kind of the token after that. -/
def nextKind : Parser Token.Kind := return (← get).nextKind

/-- The place of the token at hand. -/
def here : Parser Span := return (← get).span

/-- Moves to the next token, if there is one. -/
def advance : Parser Unit := modify Cursor.advance

/-- Stops with a fault at a place. -/
def fail (fault : SyntaxFault) (span : Span) : Parser α :=
  throw ⟨.grammatical fault, span⟩

/-- Stops because the token at hand is not what is expected. -/
def unexpected (expected : Expectation) : Parser α := do
  fail (.unexpected expected (← kind)) (← here)

/-- Takes a mark. -/
def mark (m : Mark) : Parser Unit := do
  if (← kind) = .mark m then advance else unexpected (.token (.mark m))

/-- Takes any word. -/
def word : Parser String := do
  match ← kind with
  | .word text => advance; return text
  | _ => unexpected .identifier

/-- Takes a quoted text. -/
def quoted : Parser String := do
  match ← kind with
  | .quoted text => advance; return text
  | _ => unexpected .stringLiteral

/-- Takes a mark if it stands here, and tells whether it did. -/
def optionalMark (m : Mark) : Parser Bool := do
  if (← kind) = .mark m then
    advance
    return true
  else return false

/-- Whether a block ends at the token at hand. The end of input and a bracket that closes another
kind of block leave it unbalanced. -/
def atClosing (block : Bracket) (opened : Span) : Parser Bool := do
  match ← kind with
  | .mark (.closing b) =>
    if b = block then return true else fail (.wrongCloser b block opened) (← here)
  | .endOfInput => fail (.unclosed block opened) (← here)
  | _ => return false

/-! ### Lists -/

/-- Reads items up to the closing bracket of a block and takes the bracket. One comma may follow
each item. The parser of an item is given the items before it, the nearest first. An item that took
no token would never end the block. -/
def itemsFrom (block : Bracket) (opened : Span) (item : List α → Parser α) (before : List α)
    (c : Cursor) : Except Diagnostic (List α × Cursor) :=
  match atClosing block opened c with
  | .error d => .error d
  | .ok (true, c) => .ok ([], c.advance)
  | .ok (false, _) =>
    match (item before <* optionalMark .comma) c with
    | .error d => .error d
    | .ok (a, next) =>
      if next.later.length < c.later.length then
        match itemsFrom block opened item (a :: before) next with
        | .error d => .error d
        | .ok (rest, last) => .ok (a :: rest, last)
      else .error ⟨.grammatical (.unclosed block opened), next.span⟩
termination_by c.later.length

/-- Reads a block of items between brackets. -/
def block (b : Bracket) (item : List α → Parser α) : Parser (List α) := do
  let opened ← here
  mark (.opening b)
  itemsFrom b opened item []

/-- Reads at least one item, with commas between them, up to the closing bracket of a tuple and
takes the bracket. -/
def slotsFrom (opened : Span) (item : Parser α) (c : Cursor) :
    Except Diagnostic (List α × Cursor) :=
  match item c with
  | .error d => .error d
  | .ok (a, next) =>
    if next.kind = .mark .comma then
      if next.advance.later.length < c.later.length then
        match slotsFrom opened item next.advance with
        | .error d => .error d
        | .ok (rest, last) => .ok (a :: rest, last)
      else .error ⟨.grammatical (.unclosed .round opened), next.span⟩
    else
      match atClosing .round opened next with
      | .error d => .error d
      | .ok (true, last) => .ok ([a], last.advance)
      | .ok (false, last) => unexpected .commaOrParen last
termination_by c.later.length

/-- Reads a tuple. -/
def tuple (item : Parser α) : Parser (List α) := do
  let opened ← here
  mark (.opening .round)
  slotsFrom opened item

/-- Reads as many items as start with a mark. -/
def startingWith (m : Mark) (item : Parser α) (c : Cursor) : Except Diagnostic (List α × Cursor) :=
  if c.kind = .mark m then
    match item c with
    | .error d => .error d
    | .ok (a, next) =>
      if next.later.length < c.later.length then
        match startingWith m item next with
        | .error d => .error d
        | .ok (rest, last) => .ok (a :: rest, last)
      else .ok ([a], next)
  else .ok ([], c)
termination_by c.later.length

end Parser

end TypedConfig
