import TypedConfig.Declaration
import TypedConfig.Node
/-!
A source file as it is read: the files that it includes, its declarations, and one root object.
-/
namespace TypedConfig

/-- A directive that puts the content of another file before that of this one. -/
structure Include where
  path : String
  span : Span
deriving Repr, DecidableEq

/-- The root object, which has no typeName. -/
structure Root where
  entries : List Entry
  span : Span

/-- One source file. -/
structure Document where
  includes : List Include
  declarations : List Declaration
  root : Root

end TypedConfig
