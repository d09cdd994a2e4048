/-!
What an alternative of an enum carries: nothing, a tuple of slots in order, or named fields. The
same three forms serve the declaration of an alternative, where slots and fields hold types, the
literals of a source text, and checked values.
-/
namespace TypedConfig

/-- A payload with the given kinds of tuple slots and of fields. -/
inductive Payload (slot field : Type) where
  | unit
  | tuple (slots : List slot)
  | fields (fields : List field)
deriving Repr, DecidableEq

/-- How diagnostics name the form of a payload. -/
def Payload.describe {slot field : Type} : Payload slot field → String
  | unit => "no payload"
  | tuple slots => "a tuple of " ++ toString slots.length
  | fields _ => "a struct payload"

end TypedConfig
