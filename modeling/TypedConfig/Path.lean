import TypedConfig.Text.Split
/-!
Paths of files. A path is its text, and means the components that the text is cut into: doubled and
last slashes count for nothing, and neither does a point, except as the first component of a
relative path. Normalizing resolves the points and the double points without looking at any file.
-/
namespace TypedConfig

/-- One step of a path. -/
inductive Path.Component where
  | root
  | here
  | up
  | name (text : List Char)
deriving Repr, DecidableEq

/-- A path as it is written. -/
structure Path where
  text : String
deriving Repr, DecidableEq, Inhabited

namespace Path

/-- What a piece of text between slashes stands for; `first` is whether a point counts there. -/
def Component.ofPiece (first : Bool) (piece : List Char) : List Component :=
  if piece.isEmpty then []
  else if piece = ['.'] then (if first then [.here] else [])
  else if piece = ['.', '.'] then [.up]
  else [.name piece]

/-- Whether a path begins at the root. -/
def isAbsolute (p : Path) : Bool := p.text.toList.head? == some '/'

/-- The components of a path. -/
def components (p : Path) : List Component :=
  match Text.splitOn '/' p.text.toList with
  | [] => []
  | piece :: pieces =>
    (if p.isAbsolute then [.root] else Component.ofPiece true piece) ++
      pieces.flatMap (Component.ofPiece false)

/-- Two spellings that are cut into the same components are one path. -/
def same (p q : Path) : Bool := p.components == q.components

/-- The text of a component other than the root. -/
def Component.text : Component → List Char
  | .root => []
  | .here => ['.']
  | .up => ['.', '.']
  | .name text => text

/-- The path with the given components. -/
def ofComponents : List Component → Path
  | .root :: rest => ⟨String.ofList ('/' :: Text.joinWith ['/'] (rest.map Component.text))⟩
  | cs => ⟨String.ofList (Text.joinWith ['/'] (cs.map Component.text))⟩

/-- Takes one more component into a normal list of them, the last one first. A step upwards undoes a
name, is nothing at the root, and stays where there is nothing to undo. -/
def Component.push (before : List Component) : Component → List Component
  | .here => before
  | .up =>
    match before with
    | .name _ :: others => others
    | .root :: _ => before
    | _ => .up :: before
  | c => c :: before

/-- The path without points and without double points that could be resolved. -/
def normalize (p : Path) : Path :=
  ofComponents (p.components.foldl Component.push []).reverse

/-- A path seen from a directory. An absolute one does not depend on it. -/
def join (base : Path) (relative : String) : Path :=
  if (Path.mk relative).isAbsolute then ⟨relative⟩
  else if base.text.isEmpty || base.text.toList.getLast? == some '/' then
    ⟨base.text ++ relative⟩
  else ⟨base.text ++ "/" ++ relative⟩

/-- The directory that holds a file whose path is normal; the current one if the path names none. -/
def directory (p : Path) : Path :=
  match p.components.reverse with
  | [] => ⟨"."⟩
  | [.root] => ⟨"."⟩
  | _ :: before => ofComponents before.reverse

/-- The name of a file, or the whole path if its last component is no name. -/
def shortName (p : Path) : String :=
  match p.components.getLast? with
  | some (.name text) => String.ofList text
  | _ => p.text

end Path

end TypedConfig
