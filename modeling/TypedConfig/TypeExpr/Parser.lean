import TypedConfig.Cursor
import TypedConfig.TypeExpr
/-!
Reading types. The nesting of arrays is bounded, and the bound is what the reading recurses on.
-/
namespace TypedConfig.TypeExpr

open TypedConfig.Parser

/-- Reads a type that may be nested as deep as given. -/
def parserAt : Nat → Parser TypeExpr
  | 0 => do fail .tooDeep (← here)
  | depth + 1 => do
    match ← kind with
    | .mark (.opening .square) =>
      let opened ← here
      advance
      let item ← parserAt depth
      if ← atClosing .square opened then
        advance
        return .array item
      else unexpected (.token (.mark (.closing .square)))
    | .word text =>
      advance
      return ofWord text
    | _ => unexpected .typeName

/-- Reads a type. -/
def parser : Parser TypeExpr := parserAt maxNesting

end TypedConfig.TypeExpr
