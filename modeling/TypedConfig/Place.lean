/-!
Places in a source text. A position counts lines and columns from one, columns in characters, and
the offset in bytes of UTF-8 from zero; only a line feed ends a line. A span names the file too.
-/
namespace TypedConfig

/-- Where a character stands in a text. -/
structure Position where
  line : Nat
  column : Nat
  offset : Nat
deriving Repr, DecidableEq, Inhabited

namespace Position

/-- The position of the first character. -/
def start : Position := ⟨1, 1, 0⟩

/-- The position after one character. -/
def advance (p : Position) (c : Char) : Position :=
  if c = '\n' then ⟨p.line + 1, 1, p.offset + c.utf8Size⟩
  else ⟨p.line, p.column + 1, p.offset + c.utf8Size⟩

/-- The position after a run of characters. -/
def after (p : Position) (cs : List Char) : Position :=
  cs.foldl advance p

theorem after_append {p : Position} {text more : List Char} :
    p.after (text ++ more) = (p.after text).after more := by
  simp [after]

end Position

/-- A place that a diagnostic or a node of a document points at. -/
structure Span where
  file : String
  line : Nat
  column : Nat
deriving Repr, DecidableEq, Inhabited

namespace Span

/-- The first place of a file, for what has no better one. -/
def fileStart (file : String) : Span := ⟨file, 1, 1⟩

/-- A span is written as file, line and column with colons between. -/
def text (s : Span) : String :=
  s.file ++ ":" ++ toString s.line ++ ":" ++ toString s.column

end Span

end TypedConfig
