import TypedConfig.Number.Integer
import TypedConfig.Number.Layout
import TypedConfig.Text.Split
import TypedConfig.Value
/-!
Checked values as JSON text without blanks. Literals that denote a URL, an address or a key are
written as their text; an alternative of an enum is written as its path, or as an object of its path
and what it carries.
-/
namespace TypedConfig

namespace Json

/-- The digits of a character code in base sixteen. -/
def hexDigit (n : Nat) : Char :=
  if n < 10 then Number.digitChar n else Char.ofNat (0x61 + (n - 10))

/-- A character inside quotes: the quote, the backslash and the controls are escaped. -/
def escapeChar (c : Char) : List Char :=
  if c = '"' then ['\\', '"']
  else if c = '\\' then ['\\', '\\']
  else if c = '\x08' then ['\\', 'b']
  else if c = '\x0c' then ['\\', 'f']
  else if c = '\n' then ['\\', 'n']
  else if c = '\r' then ['\\', 'r']
  else if c = '\t' then ['\\', 't']
  else if c.toNat < 0x20 then
    ['\\', 'u', '0', '0', hexDigit (c.toNat / 16), hexDigit (c.toNat % 16)]
  else [c]

/-- A text between quotes. -/
def string (cs : List Char) : List Char :=
  '"' :: cs.flatMap escapeChar ++ ['"']

/-- An array of the texts of its items. -/
def array (items : List (List Char)) : List Char :=
  '[' :: Text.joinWith [','] items ++ [']']

/-- An object of keys with the texts of their values. -/
def object (members : List (String × List Char)) : List Char :=
  '{' :: Text.joinWith [','] (members.map fun (key, text) => string key.toList ++ ':' :: text) ++
    ['}']

end Json

namespace Value

mutual

/-- The JSON text of a value. -/
def json : Value → List Char
  | string text => Json.string text.toList
  | integer n => Number.writeInteger n
  | float x => x.write .json
  | boolean b => if b then "true".toList else "false".toList
  | null => "null".toList
  | url u => Json.string u.text
  | socket a => Json.string a.text
  | pubkey k => Json.string k.text
  | array items => Json.array (jsonItems items)
  | object _ fields => Json.object (jsonFields fields)
  | variant enum name payload => jsonPayload (Json.string (variantPath enum name).toList) payload
termination_by structural value => value

/-- The JSON text of an alternative whose path is given. -/
def jsonPayload (path : List Char) : Payload Value (String × Value) → List Char
  | .unit => path
  | .tuple items => Json.object [("variant", path), ("data", Json.array (jsonItems items))]
  | .fields fields => Json.object [("variant", path), ("data", Json.object (jsonFields fields))]
termination_by structural payload => payload

/-- The JSON texts of items. -/
def jsonItems : List Value → List (List Char)
  | [] => []
  | value :: values => value.json :: jsonItems values
termination_by structural values => values

/-- The keys of fields with the JSON texts of their values. -/
def jsonFields : List (String × Value) → List (String × List Char)
  | [] => []
  | (key, value) :: fields => (key, value.json) :: jsonFields fields
termination_by structural fields => fields

end

end Value

/-- The JSON text of a document. -/
def Configuration.json (c : Configuration) : String := String.ofList c.toValue.json

end TypedConfig
