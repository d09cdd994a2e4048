import TypedConfig.Diagnostic
import TypedConfig.Number.Binary64
import TypedConfig.Payload
/-!
Values as a source text writes them, before anything is known of their types. Every node has the
place of its first token, and every entry of an object also that of its key.
-/
namespace TypedConfig

mutual

/-- A written value at its place. -/
structure Node where
  form : Form
  span : Span

/-- The forms of a written value. An object has its own place too, that of its opening brace, since
an annotation may stand before it. -/
inductive Form where
  | string (text : String)
  | integer (value : Int64)
  | float (value : Number.Binary64)
  | boolean (value : Bool)
  | null
  | array (items : List Node)
  | object (typeName : Option String) (entries : List Entry) (opened : Span)
  | variant (enum name : String) (payload : Payload Node Entry)
  | extended (kind : Extended) (raw : String)

/-- A key with its value. -/
structure Entry where
  key : String
  keySpan : Span
  value : Node

end

/-- Whether a written value is the word for no value. -/
def Node.isNull (node : Node) : Bool :=
  match node.form with
  | .null => true
  | _ => false

/-- How diagnostics name a written value. -/
def Form.describe : Form → String
  | string _ => "string"
  | integer _ => "int"
  | float _ => "float"
  | boolean _ => "bool"
  | null => "null"
  | array _ => "array"
  | object none _ _ => "object"
  | object (some name) _ _ => "object " ++ name
  | variant enum name _ => "enum literal " ++ enum ++ "." ++ name
  | extended kind _ => kind.keyword

end TypedConfig
