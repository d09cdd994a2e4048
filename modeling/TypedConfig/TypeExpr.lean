import TypedConfig.Diagnostic
/-!
Types as declarations write them: the seven built-in ones, the name of a declaration, and arrays.
-/
namespace TypedConfig

/-- A type in a declaration. Names are not looked up before a document is checked. -/
inductive TypeExpr where
  | string
  | integer
  | float
  | boolean
  | extended (kind : Extended)
  | named (name : String)
  | array (item : TypeExpr)
deriving Repr, DecidableEq

namespace TypeExpr

/-- The type that a word denotes: a built-in one, or the declaration of that name. -/
def ofWord (word : String) : TypeExpr :=
  if word = "string" then .string
  else if word = "int" then .integer
  else if word = "float" then .float
  else if word = "bool" then .boolean
  else match Extended.ofKeyword? word with
    | some kind => .extended kind
    | none => .named word

/-- A type as it is written. -/
def text : TypeExpr → String
  | string => "string"
  | integer => "int"
  | float => "float"
  | boolean => "bool"
  | extended kind => kind.keyword
  | named name => name
  | array item => "[" ++ item.text ++ "]"

/-- The declaration that a type refers to, if it refers to one. -/
def reference? : TypeExpr → Option String
  | named name => some name
  | array item => item.reference?
  | _ => none

end TypeExpr

end TypedConfig
