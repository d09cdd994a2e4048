import TypedConfig.Number.Integer
import TypedConfig.Number.Layout
import TypedConfig.Registry
import TypedConfig.Text.Quoted
import TypedConfig.Text.Split
import TypedConfig.Value
/-!
Printing a checked document with its declarations as source text that reads as the same document.
Blocks have one line for each of their parts, two blanks deeper than the line they begin on, and no
commas; an array without blocks stands on one line, with commas.
-/
namespace TypedConfig

namespace Layout

/-- Begins a line at a depth. -/
def newline (depth : Nat) : List Char := '\n' :: List.replicate (2 * depth) ' '

/-- A block whose parts stand on lines of their own, one step deeper than the block. -/
def block (depth : Nat) (opening closing : Char) (parts : List (List Char)) : List Char :=
  if parts.isEmpty then [opening, closing]
  else
    opening :: (parts.flatMap fun part => newline (depth + 1) ++ part) ++ newline depth ++ [closing]

/-- Parts on one line, with commas between them. -/
def inline (opening closing : Char) (parts : List (List Char)) : List Char :=
  opening :: Text.joinWith [',', ' '] parts ++ [closing]

end Layout

open Layout

/-! ### Declarations -/

/-- A declared field. -/
def Field.source (f : Field) : List Char :=
  f.name.toList ++ (if f.optional then ['?'] else []) ++ [':', ' '] ++ f.type.text.toList

/-- What an alternative carries, at the depth of its line. -/
def Variant.shapeSource (depth : Nat) : Payload Slot Field → List Char
  | .unit => []
  | .tuple slots => inline '(' ')' (slots.map fun s => s.type.text.toList)
  | .fields fields => ' ' :: block depth '{' '}' (fields.map Field.source)

/-- An alternative of an enum. -/
def Variant.source (depth : Nat) (v : Variant) : List Char :=
  v.name.toList ++ Variant.shapeSource depth v.shape

/-- A declaration. -/
def Declaration.source (d : Declaration) : List Char :=
  d.keyword.toList ++ ' ' :: d.name.toList ++ ' ' ::
    match d.body with
    | .record fields => block 0 '{' '}' (fields.map Field.source)
    | .choice variants => block 0 '{' '}' (variants.map (Variant.source 1))

/-! ### Values -/

/-- Whether a value ends in a block, which gives every item of an array a line of its own. -/
def Value.isBlock : Value → Bool
  | object _ _ => true
  | variant _ _ (.fields _) => true
  | _ => false

/-- A text in the parentheses of a keyword. -/
def Extended.source (kind : Extended) (raw : List Char) : List Char :=
  kind.keyword.toList ++ '(' :: Text.quote raw ++ [')']

mutual

/-- A value that begins on a line of the given depth. -/
def Value.source (depth : Nat) : Value → List Char
  | .string text => Text.quote text.toList
  | .integer n => Number.writeInteger n
  | .float x => x.write .source
  | .boolean b => if b then "true".toList else "false".toList
  | .null => "null".toList
  | .url u => Extended.source .url u.text
  | .socket a => Extended.source .socket a.text
  | .pubkey k => Extended.source .pubkey k.text
  | .array items =>
    if items.any Value.isBlock then block depth '[' ']' (Value.itemSources (depth + 1) items)
    else inline '[' ']' (Value.itemSources depth items)
  | .object typeName fields =>
    (match typeName with
      | some name => name.toList ++ [' ']
      | none => []) ++
      block depth '{' '}' (Value.fieldSources (depth + 1) fields)
  | .variant enum name payload =>
    (Value.variantPath enum name).toList ++ Value.payloadSource depth payload
termination_by structural value => value

/-- What an alternative of an enum carries. -/
def Value.payloadSource (depth : Nat) : Payload Value (String × Value) → List Char
  | .unit => []
  | .tuple items => inline '(' ')' (Value.itemSources depth items)
  | .fields fields => ' ' :: block depth '{' '}' (Value.fieldSources (depth + 1) fields)
termination_by structural payload => payload

/-- Items that begin on lines of the given depth. -/
def Value.itemSources (depth : Nat) : List Value → List (List Char)
  | [] => []
  | value :: values => value.source depth :: Value.itemSources depth values
termination_by structural values => values

/-- Fields that begin on lines of the given depth. -/
def Value.fieldSources (depth : Nat) : List (String × Value) → List (List Char)
  | [] => []
  | (key, value) :: fields =>
    (key.toList ++ ':' :: ' ' :: value.source depth) :: Value.fieldSources depth fields
termination_by structural fields => fields

end

/-- A document with declarations before it, each followed by an empty line. -/
def Configuration.source (registry : Registry) (c : Configuration) : List Char :=
  (registry.declarations.flatMap fun d => d.source ++ ['\n', '\n']) ++
    block 0 '{' '}' (Value.fieldSources 1 c.fields) ++ ['\n']

/-- The canonical source text of a document with declarations. -/
def Configuration.render (registry : Registry) (c : Configuration) : String :=
  String.ofList (c.source registry)

end TypedConfig
