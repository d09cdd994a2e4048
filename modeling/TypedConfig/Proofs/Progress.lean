import TypedConfig.Document.Parser
/-!
Reading tokens in steps. The tokens stay where they are, and a station moves along them: the index
of the token at hand, and the number of values or types that are being read around it. A loop is
given a number of rounds and a recursion a number of levels. A run that would need more of them, or
that looks outside of the tokens, gives nothing. Apart from that, the steps are those of the
parsers.
-/
namespace TypedConfig

/-- What a run never changes: the tokens of a file, and the rounds that each loop may take. -/
structure Setting where
  file : String
  tokens : List Token
  rounds : Nat

/-- Where a run stands: the index of the token at hand, how deep the nesting is, and the tokens that
were taken on the way. -/
structure Station where
  position : Nat
  depth : Nat
  taken : List Token
deriving Repr, DecidableEq

namespace Station

/-- Where every run begins. -/
def start : Station := ⟨0, 0, []⟩

/-- The station behind a token that was taken. -/
def take (s : Station) (t : Token) : Station :=
  { s with position := s.position + 1, taken := s.taken ++ [t] }

end Station

/-- A reading that moves a station. It ends with a result or with a diagnostic, and at a station in
both cases, or it gives nothing. -/
abbrev Stepper := ReaderT Setting (ExceptT Diagnostic (StateT Station Option))

namespace Stepper

variable {α : Type}

/-- Gives nothing. -/
def nothing : Stepper α := fun _ _ => none

/-- The token at an index, or the last one if there are fewer tokens. -/
def tokenAt (index : Nat) : Stepper Token := fun setting s =>
  match setting.tokens[min index (setting.tokens.length - 1)]? with
  | some t => some (.ok t, s)
  | none => none

/-- The token at hand. -/
def current : Stepper Token := do tokenAt (← get).position

/-- The kind of the token at hand. -/
def kind : Stepper Token.Kind := return (← current).kind

/-- The kind of the token after that. -/
def nextKind : Stepper Token.Kind := return (← tokenAt ((← get).position + 1)).kind

/-- The place of the token at hand. -/
def here : Stepper Span := return (← current).span (← read).file

/-- Takes the token at hand, and moves to the next one unless it is the last. -/
def advance : Stepper Unit := do
  let t ← current
  if (← get).position < (← read).tokens.length - 1 then modify fun s => s.take t
  else modify fun s => { s with taken := s.taken ++ [t] }

/-- Stops with a fault at a place. -/
def fail (fault : SyntaxFault) (span : Span) : Stepper α :=
  throw ⟨.grammatical fault, span⟩

/-- Stops because the token at hand is not what is expected. -/
def unexpected (expected : Expectation) : Stepper α := do
  fail (.unexpected expected (← kind)) (← here)

/-- Takes a mark. -/
def mark (m : Mark) : Stepper Unit := do
  if (← kind) = .mark m then advance else unexpected (.token (.mark m))

/-- Takes any word. -/
def word : Stepper String := do
  match ← kind with
  | .word text => advance; return text
  | _ => unexpected .identifier

/-- Takes a quoted text. -/
def quoted : Stepper String := do
  match ← kind with
  | .quoted text => advance; return text
  | _ => unexpected .stringLiteral

/-- Takes a mark if it stands here, and tells whether it did. -/
def optionalMark (m : Mark) : Stepper Bool := do
  if (← kind) = .mark m then
    advance
    return true
  else return false

/-- Whether a block ends at the token at hand. -/
def atClosing (block : Bracket) (opened : Span) : Stepper Bool := do
  match ← kind with
  | .mark (.closing b) =>
    if b = block then return true else fail (.wrongCloser b block opened) (← here)
  | .endOfInput => fail (.unclosed block opened) (← here)
  | _ => return false

/-- Reads one level deeper, if there is one, and goes back a level however that ends. -/
def nested (inner : Stepper α) : Stepper α := fun setting s =>
  if maxNesting ≤ s.depth then (do fail .tooDeep (← here) : Stepper α) setting s
  else match inner setting { s with depth := s.depth + 1 } with
    | some (outcome, s') => some (outcome, { s' with depth := s'.depth - 1 })
    | none => none

/-! ### Loops -/

/-- One round of a loop over a list: an item, and whether a comma was taken behind it. -/
def round (item : Stepper α) : Stepper (α × Bool) := do
  let a ← item
  return (a, ← optionalMark .comma)

/-- Reads items up to the closing bracket of a block. The stepper of an item is given the items
before it, the nearest first. -/
def items (b : Bracket) (opened : Span) (item : List α → Stepper α) :
    Nat → List α → Stepper (List α)
  | 0, _ => nothing
  | rounds + 1, before => do
    if ← atClosing b opened then return []
    else
      let (a, _) ← round (item before)
      return a :: (← items b opened item rounds (a :: before))

/-- Reads a block of items between brackets. -/
def block (b : Bracket) (item : List α → Stepper α) : Stepper (List α) := do
  let opened ← here
  mark (.opening b)
  let as ← items b opened item (← read).rounds []
  advance
  return as

/-- Reads at least one item, with commas between them, up to the closing bracket of a tuple and
takes the bracket. -/
def slots (opened : Span) (item : Stepper α) : Nat → Stepper (List α)
  | 0 => nothing
  | rounds + 1 => do
    let (a, more) ← round item
    if more then return a :: (← slots opened item rounds)
    else if ← atClosing .round opened then
      advance
      return [a]
    else unexpected .commaOrParen

/-- Reads a tuple. -/
def tuple (item : Stepper α) : Stepper (List α) := do
  let opened ← here
  mark (.opening .round)
  slots opened item (← read).rounds

/-- Reads as many items as start with a mark. -/
def startingWith (m : Mark) (item : Stepper α) : Nat → Stepper (List α)
  | 0 => nothing
  | rounds + 1 => do
    if (← kind) = .mark m then
      let a ← item
      return a :: (← startingWith m item rounds)
    else return []

end Stepper

open TypedConfig.Stepper

/-! ### Types and declarations -/

/-- Reads a type, in at most as many levels as given. -/
def TypeExpr.stepper : Nat → Stepper TypeExpr
  | 0 => nothing
  | levels + 1 => nested do
    match ← kind with
    | .mark (.opening .square) =>
      let opened ← here
      advance
      let item ← TypeExpr.stepper levels
      if ← atClosing .square opened then
        advance
        return .array item
      else unexpected (.token (.mark (.closing .square)))
    | .word text =>
      advance
      return ofWord text
    | _ => unexpected .typeName

section

variable (levels : Nat)

/-- Reads a type of a tuple. -/
def Slot.stepper : Stepper Slot := do
  let span ← here
  return ⟨← TypeExpr.stepper levels, span⟩

/-- Reads a field that comes after others of its block. -/
def Field.stepper (before : List Field) : Stepper Field := do
  let span ← here
  let name ← word
  let optional ← optionalMark .question
  mark .colon
  let type ← TypeExpr.stepper levels
  if before.any (·.name = name) then fail (.duplicateField name) span
  else return ⟨name, type, optional, span⟩

/-- Reads what an alternative carries. -/
def Variant.shapeStepper : Stepper (Payload Slot Field) := do
  match ← kind with
  | .mark (.opening .round) => return .tuple (← tuple (Slot.stepper levels))
  | .mark (.opening .brace) => return .fields (← block .brace (Field.stepper levels))
  | _ => return .unit

/-- Reads an alternative that comes after others of its enum. -/
def Variant.stepper (before : List Variant) : Stepper Variant := do
  let span ← here
  let name ← word
  let shape ← Variant.shapeStepper levels
  if before.any (·.name = name) then fail (.duplicateVariant name) span
  else return ⟨name, shape, span⟩

/-- Reads the alternatives of an enum, and stops at the closing brace if there are none. -/
def Declaration.choiceStepper : Stepper (List Variant) := do
  let opened ← here
  mark (.opening .brace)
  let variants ← items .brace opened (Variant.stepper levels) (← read).rounds []
  if variants.isEmpty then unexpected .enumVariant
  else
    advance
    return variants

/-- Reads a declaration. -/
def Declaration.stepper : Stepper Declaration := do
  let span ← here
  mark .atSign
  match ← kind with
  | .word "enum" =>
    advance
    let name ← word
    return ⟨name, .choice (← Declaration.choiceStepper levels), span⟩
  | .word "type" =>
    advance
    let name ← word
    return ⟨name, .record (← block .brace (Field.stepper levels)), span⟩
  | _ => unexpected .declarationWord

end

/-! ### Values -/

/-- Reads an entry that comes after others of its object. -/
def Entry.stepper (value : Stepper Node) (before : List Entry) : Stepper Entry := do
  let keySpan ← here
  match ← kind with
  | .word key =>
    advance
    mark .colon
    let node ← value
    if before.any (·.key = key) then fail (.duplicateKey key) keySpan
    else return ⟨key, keySpan, node⟩
  | _ => unexpected .key

/-- Reads the entries of an object between braces. -/
def Entry.blockStepper (value : Stepper Node) : Stepper (List Entry) :=
  block .brace (Entry.stepper value)

namespace Form

/-- Reads an object whose annotation, if any, has been read. -/
def objectStepper (typeName : Option String) (value : Stepper Node) : Stepper Form := do
  let opened ← here
  return .object typeName (← Entry.blockStepper value) opened

/-- Reads a keyword with one quoted text between parentheses. -/
def extendedStepper (kind : Extended) : Stepper Form := do
  advance
  mark (.opening .round)
  match ← Stepper.kind, ← nextKind with
  | .quoted raw, .mark (.closing .round) =>
    advance
    advance
    return .extended kind raw
  | _, _ => fail (.literalArgument kind) (← here)

/-- Reads what an alternative of an enum carries. -/
def payloadStepper (value : Stepper Node) : Stepper (Payload Node Entry) := do
  match ← kind with
  | .mark (.opening .brace) => return .fields (← Entry.blockStepper value)
  | .mark (.opening .round) => return .tuple (← tuple value)
  | _ => return .unit

/-- Reads an alternative of an enum. -/
def variantStepper (enum : String) (value : Stepper Node) : Stepper Form := do
  advance
  mark .dot
  let name ← word
  return .variant enum name (← payloadStepper value)

/-- Reads a value that begins with a word. -/
def wordStepper (text : String) (value : Stepper Node) : Stepper Form := do
  if text = "true" then
    advance
    return .boolean true
  else if text = "false" then
    advance
    return .boolean false
  else if text = "null" then
    advance
    return .null
  else match ← nextKind, Extended.ofKeyword? text with
    | .mark (.opening .round), some kind => extendedStepper kind
    | .mark .dot, _ => variantStepper text value
    | .mark (.opening .brace), _ =>
      advance
      objectStepper (some text) value
    | _, _ => unexpected .value

/-- Reads a value whose parts are read by the given stepper. -/
def stepper (value : Stepper Node) : Stepper Form := do
  match ← kind with
  | .quoted text =>
    advance
    return .string text
  | .integer n =>
    advance
    return .integer n
  | .fraction text =>
    match Number.Binary64.read text.toList with
    | some x =>
      advance
      return .float x
    | none => unexpected .floatLiteral
  | .mark (.opening .square) => return .array (← block .square fun _ => value)
  | .mark (.opening .brace) => objectStepper none value
  | .word text => wordStepper text value
  | _ => unexpected .value

end Form

/-- Reads a value, in at most as many levels as given. -/
def Node.stepper : Nat → Stepper Node
  | 0 => nothing
  | levels + 1 => nested do
    let span ← here
    return ⟨← Form.stepper (Node.stepper levels), span⟩

/-! ### Documents -/

/-- Reads an include directive. -/
def Include.stepper : Stepper Include := do
  let span ← here
  mark .hash
  match ← kind with
  | .word "include" =>
    advance
    return ⟨← quoted, span⟩
  | _ => unexpected .includeWord

/-- Reads the root object. -/
def Root.stepper (levels : Nat) : Stepper Root := do
  let span ← here
  match ← kind with
  | .mark (.opening .brace) => return ⟨← Entry.blockStepper (Node.stepper levels), span⟩
  | .mark .hash => unexpected .declarationOrRoot
  | _ => unexpected .root

namespace Document

/-- Checks that nothing follows the root object. -/
def endStepper : Stepper Unit := do
  match ← kind with
  | .endOfInput => return ()
  | .mark (.closing b) => fail (.unmatched b) (← here)
  | _ => unexpected .endAfterRoot

/-- Reads a whole file. -/
def stepper (levels : Nat) : Stepper Document := do
  let includes ← startingWith .hash Include.stepper (← read).rounds
  let declarations ← startingWith .atSign (Declaration.stepper levels) (← read).rounds
  let root ← Root.stepper levels
  endStepper
  return ⟨includes, declarations, root⟩

end Document

end TypedConfig
