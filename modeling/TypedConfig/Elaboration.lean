import TypedConfig.Bundle
import TypedConfig.Typing.Check
/-!
Elaboration: from source text to a checked document. Reading a text and following its includes stop
at the first diagnostic; checking reports everything that is wrong.
-/
namespace TypedConfig

/-- Checks a bundle against declarations, which may be those of another bundle. References between
the declarations are checked too. -/
def Bundle.check (registry : Registry) (options : Options) (bundle : Bundle) :
    Except (List Diagnostic) Configuration :=
  (((Verdict.all (Entry.checkAll registry options none bundle.root.entries)).map
    Configuration.mk).after registry.unresolved).toExcept

/-- Checks a bundle against its own declarations. -/
def Bundle.elaborate (options : Options) (bundle : Bundle) :
    Except (List Diagnostic) Configuration := do
  let registry ← (Registry.build bundle.declarations).mapError ([·])
  bundle.check registry options

namespace Configuration

/-- Elaborates a source text that counts as the content of a path. -/
def ofSource (lib : Library) (options : Options) (path : Path) (source : String) :
    Except (List Diagnostic) Configuration := do
  let bundle ← (Bundle.ofSource lib path source).mapError ([·])
  bundle.elaborate options

/-- Elaborates a file of a library. -/
def load (lib : Library) (options : Options) (path : Path) :
    Except (List Diagnostic) Configuration := do
  let bundle ← (Bundle.load lib path).mapError ([·])
  bundle.elaborate options

end Configuration

end TypedConfig
