import TypedConfig.Place
import TypedConfig.Number.Integer
/-!
Tokens: the words, literals and marks of a source text, each with its position. The last token of a
text is the end of input, which stands where the text ends.
-/
namespace TypedConfig

/-- The kinds of brackets. -/
inductive Bracket where
  | brace
  | square
  | round
deriving Repr, DecidableEq

/-- Punctuation of one character. -/
inductive Mark where
  | opening (b : Bracket)
  | closing (b : Bracket)
  | colon
  | comma
  | dot
  | question
  | atSign
  | hash
deriving Repr, DecidableEq

namespace Mark

/-- The character of a mark. -/
def char : Mark → Char
  | opening .brace => '{'
  | closing .brace => '}'
  | opening .square => '['
  | closing .square => ']'
  | opening .round => '('
  | closing .round => ')'
  | colon => ':'
  | comma => ','
  | dot => '.'
  | question => '?'
  | atSign => '@'
  | hash => '#'

/-- The mark of a character. -/
def ofChar? : Char → Option Mark
  | '{' => some (opening .brace)
  | '}' => some (closing .brace)
  | '[' => some (opening .square)
  | ']' => some (closing .square)
  | '(' => some (opening .round)
  | ')' => some (closing .round)
  | ':' => some colon
  | ',' => some comma
  | '.' => some dot
  | '?' => some question
  | '@' => some atSign
  | '#' => some hash
  | _ => none

end Mark

namespace Token

/-- What a token is. Quoted text has its escapes resolved, an integer is the value, and a number
with a fraction keeps its text. -/
inductive Kind where
  | word (text : String)
  | quoted (text : String)
  | integer (value : Int64)
  | fraction (text : String)
  | mark (m : Mark)
  | endOfInput
deriving Repr, DecidableEq

/-- How diagnostics name a token. -/
def Kind.describe : Kind → String
  | word text => "'" ++ text ++ "'"
  | quoted text => "string \"" ++ text ++ "\""
  | integer value => "integer " ++ String.ofList (Number.writeInteger value)
  | fraction text => "float " ++ text
  | mark m => "'" ++ String.singleton m.char ++ "'"
  | endOfInput => "end of input"

end Token

/-- A token at its position. -/
structure Token where
  kind : Token.Kind
  position : Position
deriving Repr, DecidableEq

/-- The place of a token in a file. -/
def Token.span (file : String) (t : Token) : Span :=
  ⟨file, t.position.line, t.position.column⟩

end TypedConfig
