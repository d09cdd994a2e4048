import TypedConfig.Diagnostic
import TypedConfig.Number.Rounding
import TypedConfig.Value
/-!
Taking plain data out of checked values. A target says which data is wanted, and what is taken out
is of the type that belongs to the target.
-/
namespace TypedConfig

/-- A type of data to take out of a value. -/
inductive Target where
  | string
  | integer
  | float
  | boolean
  | extended (kind : Extended)
  | list (item : Target)
  | option (target : Target)
deriving Repr, DecidableEq

namespace Target

/-- The type of what a target takes out. -/
abbrev Result : Target → Type
  | string => String
  | integer => Int64
  | float => Number.Binary64
  | boolean => Bool
  | extended .url => Url
  | extended .socket => SocketAddress
  | extended .pubkey => PublicKey
  | list item => List item.Result
  | option target => Option target.Result

/-- How diagnostics name a target that does not fit a value. -/
def text : Target → String
  | string => "string"
  | integer => "int"
  | float => "float"
  | boolean => "bool"
  | extended kind => kind.keyword
  | list _ => "array"
  | option target => target.text

/-- The value is not of the kind that the target wants. -/
def mismatch (target : Target) (value : Value) : TypeFault :=
  .mismatch target.text value.kind.text

/-- Takes the wanted data out of a value. An integer counts as a floating-point number where one is
wanted, and null is the absence of what is optional. -/
def extract : (target : Target) → Value → Except TypeFault target.Result
  | string, .string text => .ok text
  | integer, .integer n => .ok n
  | float, .float x => .ok x
  | float, .integer n => .ok (.ofInteger n)
  | boolean, .boolean b => .ok b
  | extended .url, .url u => .ok u
  | extended .socket, .socket a => .ok a
  | extended .pubkey, .pubkey k => .ok k
  | list item, .array items => items.mapM item.extract
  | option _, .null => .ok none
  | option target, value => (target.extract value).map some
  | target, value => .error (target.mismatch value)

end Target

end TypedConfig
