import TypedConfig.Cursor
import TypedConfig.Node
import TypedConfig.Number.DecimalText
/-!
Reading values. The nesting of values is bounded, and the bound is what the reading recurses on: the
parser of a value one level deeper is an argument of the parsers of its surroundings. The words
`true`, `false` and `null` are always literals; what any other word begins is told by the mark that
follows it.
-/
namespace TypedConfig

open TypedConfig.Parser

/-- Reads an entry that comes after others of its object. -/
def Entry.parser (value : Parser Node) (before : List Entry) : Parser Entry := do
  let keySpan ← here
  match ← kind with
  | .word key =>
    advance
    mark .colon
    let node ← value
    if before.any (·.key = key) then fail (.duplicateKey key) keySpan
    else return ⟨key, keySpan, node⟩
  | _ => unexpected .key

/-- Reads the entries of an object between braces. -/
def Entry.blockParser (value : Parser Node) : Parser (List Entry) :=
  block .brace (Entry.parser value)

namespace Form

/-- Reads an object whose annotation, if any, has been read. -/
def objectParser (typeName : Option String) (value : Parser Node) : Parser Form := do
  let opened ← here
  return .object typeName (← Entry.blockParser value) opened

/-- Reads a keyword with one quoted text between parentheses. -/
def extendedParser (kind : Extended) : Parser Form := do
  advance
  mark (.opening .round)
  match ← Parser.kind, ← nextKind with
  | .quoted raw, .mark (.closing .round) =>
    advance
    advance
    return .extended kind raw
  | _, _ => fail (.literalArgument kind) (← here)

/-- Reads what an alternative of an enum carries. -/
def payloadParser (value : Parser Node) : Parser (Payload Node Entry) := do
  match ← kind with
  | .mark (.opening .brace) => return .fields (← Entry.blockParser value)
  | .mark (.opening .round) => return .tuple (← tuple value)
  | _ => return .unit

/-- Reads an alternative of an enum. -/
def variantParser (enum : String) (value : Parser Node) : Parser Form := do
  advance
  mark .dot
  let name ← word
  return .variant enum name (← payloadParser value)

/-- Reads a value that begins with a word. -/
def wordParser (text : String) (value : Parser Node) : Parser Form := do
  if text = "true" then
    advance
    return .boolean true
  else if text = "false" then
    advance
    return .boolean false
  else if text = "null" then
    advance
    return .null
  else match ← nextKind, Extended.ofKeyword? text with
    | .mark (.opening .round), some kind => extendedParser kind
    | .mark .dot, _ => variantParser text value
    | .mark (.opening .brace), _ =>
      advance
      objectParser (some text) value
    | _, _ => unexpected .value

/-- Reads a value whose parts are read by the given parser. -/
def parser (value : Parser Node) : Parser Form := do
  match ← kind with
  | .quoted text =>
    advance
    return .string text
  | .integer n =>
    advance
    return .integer n
  | .fraction text =>
    match Number.Binary64.read text.toList with
    | some x =>
      advance
      return .float x
    | none => unexpected .floatLiteral
  | .mark (.opening .square) => return .array (← block .square fun _ => value)
  | .mark (.opening .brace) => objectParser none value
  | .word text => wordParser text value
  | _ => unexpected .value

end Form

namespace Node

/-- Reads a value that may be nested as deep as given. -/
def parserAt : Nat → Parser Node
  | 0 => do fail .tooDeep (← here)
  | depth + 1 => do
    let span ← here
    return ⟨← Form.parser (parserAt depth), span⟩

/-- Reads a value. -/
def parser : Parser Node := parserAt maxNesting

end Node

end TypedConfig
