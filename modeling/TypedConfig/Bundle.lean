import TypedConfig.Document.Parser
import TypedConfig.Library
import TypedConfig.Repetition
/-!
Bundles: a file with everything that it includes. The content of an included file comes before that
of the including one, as if it had been pasted there, and a file that is included twice is pasted
twice. Names of declarations and keys of the root are never repeated in a bundle, and no file
includes itself, directly or through others.
-/
namespace TypedConfig

/-- What files contribute to a bundle, in order. -/
structure Content where
  files : List Path
  declarations : List Declaration
  entries : List Entry

namespace Content

/-- No content. -/
def empty : Content := ⟨[], [], []⟩

/-- The content of one file without what it includes. -/
def own (path : Path) (document : Document) : Content :=
  ⟨[path], document.declarations, document.root.entries⟩

/-- The first repeated name or key, names before keys. -/
def repetition? (content : Content) : Option Diagnostic :=
  match firstRepeat? Declaration.name content.declarations with
  | some (first, again) =>
    some ⟨.inclusion (.duplicateDeclaration again.name first.span), again.span⟩
  | none =>
    match firstRepeat? Entry.key content.entries with
    | some (first, again) =>
      some ⟨.inclusion (.duplicateKey again.key first.keySpan), again.keySpan⟩
    | none => none

/-- Pastes content behind other content, unless a name or a key is then repeated. -/
def paste (before after : Content) : Except Diagnostic Content :=
  let content : Content :=
    ⟨before.files ++ after.files, before.declarations ++ after.declarations,
      before.entries ++ after.entries⟩
  match content.repetition? with
  | some d => .error d
  | none => .ok content

end Content

namespace Library

/-- Pastes what a list of directives includes behind the content before them. The directives stand
in a file of the given directory, and the chain holds the files that are being expanded: the root
first, and last the one that the directives stand in. -/
def expand (lib : Library) (chain : List Path) (directory : Path) (before : Content) :
    List Include → Except Diagnostic Content
  | [] => .ok before
  | directive :: others =>
    let target := lib.target directory directive.path
    match h : lib.locate target with
    | .error fault => .error ⟨.inclusion (.notFound target.text fault), directive.span⟩
    | .ok (file, source) =>
      if fresh : ¬ chain.any file.same = true then
        match Document.parse file.text source with
        | .error d => .error d
        | .ok document =>
          have := unvisited_lt h fresh
          match lib.expand (chain ++ [file]) file.directory .empty document.includes with
          | .error d => .error d
          | .ok included =>
            match included.paste (.own file document) with
            | .error d => .error d
            | .ok content =>
              match before.paste content with
              | .error d => .error d
              | .ok before => lib.expand chain directory before others
      else
        .error ⟨.inclusion (.circular ((chain ++ [file]).map Path.shortName)), directive.span⟩
termination_by directives => (lib.unvisited chain, directives.length)

end Library

/-- A file with everything that it includes. The last of the files is the file itself. -/
structure Bundle where
  path : Path
  files : List Path
  declarations : List Declaration
  root : Root

namespace Bundle

/-- The one path by which a file is known, whether or not the library has it. -/
def identity (lib : Library) (path : Path) : Path :=
  match lib.canonical path with
  | .ok file => file
  | .error _ => path.normalize

/-- The bundle of a document that was read from a path. The files that are already visited count as
being expanded around it. -/
def resolve (lib : Library) (path : Path) (visited : List Path) (document : Document) :
    Except Diagnostic Bundle := do
  let file := identity lib path
  let chain := if visited.any file.same then visited else visited ++ [file]
  let included ← lib.expand chain file.directory .empty document.includes
  let content ← included.paste (.own file document)
  return ⟨path, content.files, content.declarations, ⟨content.entries, document.root.span⟩⟩

/-- The bundle of a source text that counts as the content of a path. -/
def ofSource (lib : Library) (path : Path) (source : String) : Except Diagnostic Bundle :=
  Document.parse path.text source >>= resolve lib path []

/-- The bundle of a file of the library. -/
def load (lib : Library) (path : Path) : Except Diagnostic Bundle :=
  match lib.read path with
  | .ok source => ofSource lib path source
  | .error fault => .error ⟨.inclusion (.notFound path.text fault), .fileStart path.text⟩

end Bundle

end TypedConfig
