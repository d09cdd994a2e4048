import TypedConfig.Payload
import TypedConfig.TypeExpr
/-!
Declarations of a document: `@type` gives a name to the fields of an object, and `@enum` to a choice
of alternatives, each with a payload of its own.
-/
namespace TypedConfig

/-- A type as a slot of a tuple, with its place. -/
structure Slot where
  type : TypeExpr
  span : Span
deriving Repr, DecidableEq

/-- A declared field; only an optional one may be absent or null. -/
structure Field where
  name : String
  type : TypeExpr
  optional : Bool
  span : Span
deriving Repr, DecidableEq

/-- An alternative of an enum. -/
structure Variant where
  name : String
  shape : Payload Slot Field
  span : Span
deriving Repr, DecidableEq

/-- What a declaration gives a name to. -/
inductive Declaration.Body where
  | record (fields : List Field)
  | choice (variants : List Variant)
deriving Repr, DecidableEq

/-- A named type of objects or of alternatives. -/
structure Declaration where
  name : String
  body : Declaration.Body
  span : Span
deriving Repr, DecidableEq

namespace Declaration

/-- The keyword that starts a declaration, with its mark. -/
def Body.keyword : Body → String
  | record _ => "@type"
  | choice _ => "@enum"

/-- The keyword that starts a declaration, with its mark. -/
def keyword (d : Declaration) : String := d.body.keyword

/-- The fields of a type of objects. -/
def fields? (d : Declaration) : Option (List Field) :=
  match d.body with
  | .record fields => some fields
  | .choice _ => none

/-- The alternatives of an enum. -/
def variants? (d : Declaration) : Option (List Variant) :=
  match d.body with
  | .record _ => none
  | .choice variants => some variants

end Declaration

end TypedConfig
