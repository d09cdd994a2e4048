import TypedConfig.Declaration
import TypedConfig.TypeExpr.Parser
/-!
Reading declarations. The fields of a block have different names, and so have the alternatives of an
enum; a repeated one is reported when it has been read.
-/
namespace TypedConfig

open TypedConfig.Parser

/-- Reads a type of a tuple. -/
def Slot.parser : Parser Slot := do
  let span ← here
  return ⟨← TypeExpr.parser, span⟩

/-- Reads a field that comes after others of its block. -/
def Field.parser (before : List Field) : Parser Field := do
  let span ← here
  let name ← word
  let optional ← optionalMark .question
  mark .colon
  let type ← TypeExpr.parser
  if before.any (·.name = name) then fail (.duplicateField name) span
  else return ⟨name, type, optional, span⟩

/-- Reads what an alternative carries. -/
def Variant.shapeParser : Parser (Payload Slot Field) := do
  match ← kind with
  | .mark (.opening .round) => return .tuple (← tuple Slot.parser)
  | .mark (.opening .brace) => return .fields (← block .brace Field.parser)
  | _ => return .unit

/-- Reads an alternative that comes after others of its enum. -/
def Variant.parser (before : List Variant) : Parser Variant := do
  let span ← here
  let name ← word
  let shape ← Variant.shapeParser
  if before.any (·.name = name) then fail (.duplicateVariant name) span
  else return ⟨name, shape, span⟩

namespace Declaration

/-- Reads the alternatives of an enum, which has at least one. -/
def choiceParser : Parser (List Variant) := do
  let opened ← here
  mark (.opening .brace)
  if (← kind) = .mark (.closing .brace) then unexpected .enumVariant
  else itemsFrom .brace opened Variant.parser []

/-- Reads a declaration. -/
def parser : Parser Declaration := do
  let span ← here
  mark .atSign
  match ← kind with
  | .word "enum" =>
    advance
    let name ← word
    return ⟨name, .choice (← choiceParser), span⟩
  | .word "type" =>
    advance
    let name ← word
    return ⟨name, .record (← block .brace Field.parser), span⟩
  | _ => unexpected .declarationWord

end Declaration

end TypedConfig
