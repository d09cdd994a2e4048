import TypedConfig.Declaration.Parser
import TypedConfig.Document
import TypedConfig.Node.Parser
import TypedConfig.Token.Lexer
/-!
Reading a whole file: directives, then declarations, then the root object, then the end of input.
-/
namespace TypedConfig

open TypedConfig.Parser

/-- Reads an include directive. -/
def Include.parser : Parser Include := do
  let span ← here
  mark .hash
  match ← kind with
  | .word "include" =>
    advance
    return ⟨← quoted, span⟩
  | _ => unexpected .includeWord

/-- Reads the root object. -/
def Root.parser : Parser Root := do
  let span ← here
  match ← kind with
  | .mark (.opening .brace) => return ⟨← Entry.blockParser Node.parser, span⟩
  | .mark .hash => unexpected .declarationOrRoot
  | _ => unexpected .root

namespace Document

/-- Checks that nothing follows the root object. -/
def endParser : Parser Unit := do
  match ← kind with
  | .endOfInput => return ()
  | .mark (.closing b) => fail (.unmatched b) (← here)
  | _ => unexpected .endAfterRoot

/-- Reads a whole file. -/
def parser : Parser Document := do
  let includes ← startingWith .hash Include.parser
  let declarations ← startingWith .atSign Declaration.parser
  let root ← Root.parser
  endParser
  return ⟨includes, declarations, root⟩

/-- The document that the tokens of a file make up. -/
def ofTokens (file : String) : List Token → Except Diagnostic Document
  | [] => .error ⟨.grammatical (.unexpected .root .endOfInput), .fileStart file⟩
  | t :: later => parser.run' ⟨file, t, later⟩

/-- Reads a source text as a document. -/
def parse (file source : String) : Except Diagnostic Document :=
  Token.scan file source >>= ofTokens file

end Document

end TypedConfig
