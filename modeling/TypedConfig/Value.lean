import TypedConfig.Format.PublicKey
import TypedConfig.Format.SocketAddress
import TypedConfig.Format.Url
import TypedConfig.Number.Binary64
import TypedConfig.Payload
/-!
Checked values. A literal with a keyword has become what it denotes, and an alternative of an enum
is known to be declared with the payload it has.
-/
namespace TypedConfig

/-- A checked value. Fields keep the order of the source text. -/
inductive Value where
  | string (text : String)
  | integer (value : Int64)
  | float (value : Number.Binary64)
  | boolean (value : Bool)
  | null
  | url (value : Url)
  | socket (value : SocketAddress)
  | pubkey (value : PublicKey)
  | array (items : List Value)
  | object (typeName : Option String) (fields : List (String × Value))
  | variant (enum name : String) (payload : Payload Value (String × Value))

/-- A checked document: the fields of its root object. -/
structure Configuration where
  fields : List (String × Value)

namespace Value

/-- The kinds of values. -/
inductive Kind where
  | string
  | integer
  | float
  | boolean
  | null
  | url
  | socket
  | pubkey
  | array
  | object
  | enum
deriving Repr, DecidableEq

/-- How diagnostics name a kind. -/
def Kind.text : Kind → String
  | string => "string"
  | integer => "int"
  | float => "float"
  | boolean => "bool"
  | null => "null"
  | url => "url"
  | socket => "socket"
  | pubkey => "pubkey"
  | array => "array"
  | object => "object"
  | enum => "enum"

/-- The kind of a value. -/
def kind : Value → Kind
  | string _ => .string
  | integer _ => .integer
  | float _ => .float
  | boolean _ => .boolean
  | null => .null
  | url _ => .url
  | socket _ => .socket
  | pubkey _ => .pubkey
  | array _ => .array
  | object _ _ => .object
  | variant _ _ _ => .enum

/-- The name of an alternative together with that of its enum. -/
def variantPath (enum name : String) : String := enum ++ "." ++ name

/-! ### Parts -/

/-- The field of an object, or of a payload with fields, that has the given key. -/
def get? (key : String) : Value → Option Value
  | object _ fields => fields.lookup key
  | variant _ _ (.fields fields) => fields.lookup key
  | _ => none

/-- The item of an array, or the slot of a tuple, at the given index. -/
def item? (index : Nat) : Value → Option Value
  | array items => items[index]?
  | variant _ _ (.tuple items) => items[index]?
  | _ => none

/-! ### Sameness -/

mutual

/-- Whether two values are the same. The order of fields does not count, and floating-point numbers
are compared as numbers. -/
def same : Value → Value → Bool
  | string s, string t => s == t
  | integer m, integer n => m == n
  | float x, float y => x.same y
  | boolean a, boolean b => a == b
  | null, null => true
  | url u, url v => u == v
  | socket a, socket b => a == b
  | pubkey k, pubkey l => k == l
  | array xs, array ys => sameItems xs ys
  | object a xs, object b ys => a == b && xs.length == ys.length && fieldsIn xs ys
  | variant e n p, variant f m q => e == f && n == m && samePayload p q
  | _, _ => false
termination_by structural x => x

/-- Whether two payloads are the same. -/
def samePayload : Payload Value (String × Value) → Payload Value (String × Value) → Bool
  | .unit, .unit => true
  | .tuple xs, .tuple ys => sameItems xs ys
  | .fields xs, .fields ys => xs.length == ys.length && fieldsIn xs ys
  | _, _ => false
termination_by structural p => p

/-- Whether two lists have the same items in the same order. -/
def sameItems : List Value → List Value → Bool
  | [], [] => true
  | x :: xs, y :: ys => x.same y && sameItems xs ys
  | _, _ => false
termination_by structural xs => xs

/-- Whether every field of the first list has the same value in the second. -/
def fieldsIn : List (String × Value) → List (String × Value) → Bool
  | [], _ => true
  | (key, x) :: xs, ys => (ys.lookup key).any (fun y => x.same y) && fieldsIn xs ys
termination_by structural xs => xs

end

end Value

namespace Configuration

/-- The field of the root object that has the given key. -/
def get? (c : Configuration) (key : String) : Option Value := c.fields.lookup key

/-- The root object as a value. -/
def toValue (c : Configuration) : Value := .object none c.fields

/-- Whether two documents are the same but for the order of fields. -/
def same (c d : Configuration) : Bool := c.toValue.same d.toValue

end Configuration

end TypedConfig
