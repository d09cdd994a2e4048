import Mathlib.Data.List.Duplicate
import Mathlib.Logic.Relation
import TypedConfig.Bundle
/-!
Inclusion as pasting, apart from any way to follow it. A root file and the files of a library make
up a graph by their directives. Expanding the directives of a file lists the included files in
post-order, each one as often as it is included.
-/
namespace TypedConfig

namespace Content

/-- What files with the given documents contribute, one after the other. -/
def ofFiles (files : List (Path × Document)) : Content :=
  ⟨files.map Prod.fst, files.flatMap (·.2.declarations), files.flatMap (·.2.root.entries)⟩

/-- Content behind other content. -/
def beside (before after : Content) : Content :=
  ⟨before.files ++ after.files, before.declarations ++ after.declarations,
    before.entries ++ after.entries⟩

/-- No name of a declaration and no key of the root occurs twice. -/
def Unrepeated (content : Content) : Prop :=
  (content.declarations.map Declaration.name).Nodup ∧ (content.entries.map Entry.key).Nodup

end Content

namespace Inclusion

variable (lib : Library)

/-- The file that a directive includes: its path is taken from the directory of the file that the
directive stands in. -/
def target (file : Path) (directive : Include) : Path :=
  (lib.target file.directory directive.path).normalize

variable (root : Path) (document : Document)

/-- The document of a file: the given one for the root, and for another file the one that its text
parses to, if the library has it and it parses. -/
def document? (file : Path) : Option Document :=
  if file = root then some document
  else (lib.files.lookup file).bind fun source => (Document.parse file.text source).toOption

/-- A file includes another one directly. -/
def Edge (file other : Path) : Prop :=
  ∃ d, document? lib root document file = some d ∧
    ∃ directive ∈ d.includes, target lib file directive = other

/-- The root includes a file, directly or through others, or is that file. -/
def Reachable (file : Path) : Prop := Relation.ReflTransGen (Edge lib root document) root file

/-- Every reachable file is there and parses. -/
def Complete : Prop :=
  ∀ file, Reachable lib root document file → ∃ d, document? lib root document file = some d

/-- No reachable file includes itself, directly or through others. -/
def Acyclic : Prop :=
  ∀ file, Reachable lib root document file →
    ¬ Relation.TransGen (Edge lib root document) file file

/-- The post-order expansion of directives that stand in a file: what an included file includes,
then the file itself, then what the later directives include. -/
inductive Expands : Path → List Include → List (Path × Document) → Prop where
  | done {file : Path} : Expands file [] []
  | paste {file : Path} {directive : Include} {directives : List Include} {d : Document}
      {below later : List (Path × Document)}
      (found : document? lib root document (target lib file directive) = some d)
      (inner : Expands (target lib file directive) d.includes below)
      (others : Expands file directives later) :
      Expands file (directive :: directives) (below ++ (target lib file directive, d) :: later)

/-- The post-order expansion of the root: what it includes, then the root itself. -/
def Listing (files : List (Path × Document)) : Prop :=
  ∃ below, Expands lib root document root document.includes below ∧
    files = below ++ [(root, document)]

end Inclusion

end TypedConfig
