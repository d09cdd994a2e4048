import TypedConfig.Format.PublicKey
import TypedConfig.Format.SocketAddress
import TypedConfig.Format.Url
import TypedConfig.Library
import TypedConfig.Token
/-!
Diagnostics: what is wrong with a document, and where. A cause belongs to the stage that finds it:
reading characters, reading tokens, following includes, or checking against declarations. Each cause
has a short code and a wording; the wordings stand only here.
-/
namespace TypedConfig

/-- Why no token could be read. -/
inductive LexFault where
  | unterminatedString
  | unterminatedComment
  | character (c : Char)
  | number (text : String)
deriving Repr, DecidableEq

/-- What could have stood in the place of an unexpected token. -/
inductive Expectation where
  | token (kind : Token.Kind)
  | identifier
  | stringLiteral
  | floatLiteral
  | includeWord
  | declarationWord
  | enumVariant
  | commaOrParen
  | typeName
  | key
  | value
  | declarationOrRoot
  | root
  | endAfterRoot
deriving Repr, DecidableEq

/-- The kinds of text that stand between quotes in a literal with a keyword. -/
inductive Extended where
  | url
  | socket
  | pubkey
deriving Repr, DecidableEq

/-- The keyword of an extended literal, which is also the name of its type. -/
def Extended.keyword : Extended → String
  | url => "url"
  | socket => "socket"
  | pubkey => "pubkey"

/-- The extended literal of a keyword. -/
def Extended.ofKeyword? (word : String) : Option Extended :=
  if word = "url" then some .url
  else if word = "socket" then some .socket
  else if word = "pubkey" then some .pubkey
  else none

/-- How deep values and types may be nested. -/
def maxNesting : Nat := 128

/-- Why tokens are no document. -/
inductive SyntaxFault where
  | unexpected (expected : Expectation) (found : Token.Kind)
  | tooDeep
  | duplicateKey (key : String)
  | duplicateField (field : String)
  | duplicateVariant (variant : String)
  | literalArgument (literal : Extended)
  | unclosed (block : Bracket) (opened : Span)
  | wrongCloser (found block : Bracket) (opened : Span)
  | unmatched (found : Bracket)
deriving Repr, DecidableEq

/-- Why files cannot be put together. -/
inductive IncludeFault where
  | notFound (path : String) (reason : FileFault)
  | circular (chain : List String)
  | duplicateDeclaration (name : String) (first : Span)
  | duplicateKey (key : String) (first : Span)
deriving Repr, DecidableEq

/-- Why a document does not fit its declarations. -/
inductive TypeFault where
  | missingField (owner field : String)
  | unknownField (owner field : String)
  | unknownType (name : String)
  | unknownVariant (enum variant : String)
  | shapeMismatch (variant expected found : String)
  | mismatch (expected found : String)
  | url (raw : String) (reason : Url.Fault)
  | socket (raw : String) (reason : SocketAddress.Fault)
  | pubkey (raw : String) (reason : PublicKey.Fault)
deriving Repr, DecidableEq

/-- What is wrong, by the stage that finds it. -/
inductive Cause where
  | lexical (fault : LexFault)
  | grammatical (fault : SyntaxFault)
  | inclusion (fault : IncludeFault)
  | typing (fault : TypeFault)
deriving Repr, DecidableEq

/-- A cause at a place. -/
structure Diagnostic where
  cause : Cause
  span : Span
deriving Repr, DecidableEq

/-! ### Codes -/

/-- The code of a fault in characters. -/
def LexFault.code : LexFault → String
  | unterminatedString => "UnterminatedString"
  | unterminatedComment => "UnterminatedComment"
  | character _ => "InvalidCharacter"
  | number _ => "InvalidNumber"

/-- The code of a fault in tokens. Nesting that is too deep counts as an unexpected token. -/
def SyntaxFault.code : SyntaxFault → String
  | unexpected .. => "UnexpectedToken"
  | tooDeep => "UnexpectedToken"
  | duplicateKey _ => "DuplicateKey"
  | duplicateField _ => "DuplicateField"
  | duplicateVariant _ => "DuplicateVariant"
  | literalArgument _ => "InvalidLiteralArgument"
  | unclosed .. => "UnbalancedBraces"
  | wrongCloser .. => "UnbalancedBraces"
  | unmatched _ => "UnbalancedBraces"

/-- The code of a fault in putting files together. -/
def IncludeFault.code : IncludeFault → String
  | notFound .. => "FileNotFound"
  | circular _ => "CircularInclude"
  | duplicateDeclaration .. => "DuplicateDeclaration"
  | duplicateKey .. => "DuplicateKey"

/-- The code of a fault against declarations. -/
def TypeFault.code : TypeFault → String
  | missingField .. => "MissingRequiredField"
  | unknownField .. => "UnknownField"
  | unknownType _ => "UnknownType"
  | unknownVariant .. => "UnknownVariant"
  | shapeMismatch .. => "VariantShapeMismatch"
  | mismatch .. => "TypeMismatch"
  | url .. => "InvalidUrl"
  | socket .. => "InvalidSocket"
  | pubkey .. => "InvalidPubkey"

/-- The code of a cause. -/
def Cause.code : Cause → String
  | lexical fault => fault.code
  | grammatical fault => fault.code
  | inclusion fault => fault.code
  | typing fault => fault.code

/-- The name of the stage that finds a cause. -/
def Cause.stage : Cause → String
  | lexical _ => "lex"
  | grammatical _ => "parse"
  | inclusion _ => "include"
  | typing _ => "validate"

/-! ### Wordings -/

/-- How diagnostics name what is expected. -/
def Expectation.describe : Expectation → String
  | token kind => kind.describe
  | identifier => "identifier"
  | stringLiteral => "string literal"
  | floatLiteral => "float literal"
  | includeWord => "'include' after '#'"
  | declarationWord => "'enum' or 'type' after '@'"
  | enumVariant => "at least one enum variant"
  | commaOrParen => "',' or ')'"
  | typeName => "type"
  | key => "key"
  | value => "value"
  | declarationOrRoot => "declaration or root object (#include must come first)"
  | root => "root object '\x7b'"
  | endAfterRoot => "end of input after the root object"

/-- The wording of a fault in characters. -/
def LexFault.message : LexFault → String
  | unterminatedString => "unterminated string literal"
  | unterminatedComment => "unterminated block comment"
  | character c => "unexpected character '" ++ String.singleton c ++ "'"
  | number text => "invalid number literal '" ++ text ++ "'"

/-- How wordings name the mark that closes a block. -/
def Bracket.describeClosing (b : Bracket) : String :=
  (Token.Kind.mark (.closing b)).describe

/-- The wording of a fault in tokens. -/
def SyntaxFault.message : SyntaxFault → String
  | unexpected expected found => "expected " ++ expected.describe ++ ", found " ++ found.describe
  | tooDeep =>
    "expected at most " ++ toString maxNesting ++ " levels of nesting, found nesting too deep"
  | duplicateKey key => "duplicate key '" ++ key ++ "' in object"
  | duplicateField field => "duplicate field '" ++ field ++ "' in declaration"
  | duplicateVariant variant => "duplicate variant '" ++ variant ++ "' in enum"
  | literalArgument literal =>
    literal.keyword ++ "(...) takes exactly one string literal argument"
  | unclosed block opened =>
    "unbalanced braces: block opened at " ++ opened.text ++ " is never closed with " ++
      block.describeClosing
  | wrongCloser found block opened =>
    "unbalanced braces: found " ++ found.describeClosing ++ " where " ++
      block.describeClosing ++ " closes the block opened at " ++ opened.text
  | unmatched found => "unbalanced braces: unmatched " ++ found.describeClosing

/-- The wording of a fault in putting files together. -/
def IncludeFault.message : IncludeFault → String
  | notFound path reason => "include file not found: " ++ path ++ " (" ++ reason.message ++ ")"
  | circular chain => "circular include: " ++ String.intercalate " → " chain
  | duplicateDeclaration name first =>
    "duplicate declaration '" ++ name ++ "': first declared at " ++ first.text
  | duplicateKey key first =>
    "duplicate top-level key '" ++ key ++ "': first defined at " ++ first.text

/-- The wording of a fault against declarations. -/
def TypeFault.message : TypeFault → String
  | missingField owner field => "missing required field '" ++ field ++ "' of " ++ owner
  | unknownField owner field => "unknown field '" ++ field ++ "' for " ++ owner
  | unknownType name => "unknown type '" ++ name ++ "'"
  | unknownVariant enum variant => "enum '" ++ enum ++ "' has no variant '" ++ variant ++ "'"
  | shapeMismatch variant expected found =>
    "variant " ++ variant ++ " expects " ++ expected ++ ", found " ++ found
  | mismatch expected found => "type mismatch: expected " ++ expected ++ ", found " ++ found
  | url raw reason => "invalid url '" ++ raw ++ "': " ++ reason.message
  | socket raw reason => "invalid socket address '" ++ raw ++ "': " ++ reason.message
  | pubkey raw reason => "invalid pubkey '" ++ raw ++ "': " ++ reason.message

/-- The wording of a cause. -/
def Cause.message : Cause → String
  | lexical fault => fault.message
  | grammatical fault => fault.message
  | inclusion fault => fault.message
  | typing fault => fault.message

/-- A diagnostic is written as its place and its wording. -/
def Diagnostic.message (d : Diagnostic) : String :=
  d.span.text ++ ": " ++ d.cause.message

end TypedConfig
