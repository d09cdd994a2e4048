import TypedConfig.Proofs.Grammar.Acceptance
import TypedConfig.Proofs.Places
/-!
What tokens tell of the text that they were read from. Their offsets cut the text into slices, and
each slice read alone is the token that it begins with. Texts that stand below others have the same
tokens at places further down.
-/
namespace TypedConfig

/-! ### Slices -/

/-- The part of a text between two byte offsets. -/
def Text.slice (source : String) (first last : Nat) : String :=
  String.Pos.Raw.extract source ⟨first⟩ ⟨last⟩

/-- The end of input of a text. -/
def Token.endOf (source : String) : Token := ⟨.endOfInput, Position.start.after source.toList⟩

/-- Tokens cover a text: nothing of it is lost, and every token is where it says. -/
structure Token.Covers (file source : String) (tokens : List Token) : Prop where
  /-- The end of input is the last token and no other. -/
  closed : Closed tokens
  /-- It stands behind the last byte. -/
  ends : ∀ t ∈ tokens.getLast?, t.position.offset = source.utf8ByteSize
  increasing : (tokens.map fun t => t.position.offset).Pairwise (· < ·)
  /-- Each offset is that of a character. -/
  whole : ∀ t ∈ tokens, (Text.slice source 0 t.position.offset).utf8ByteSize = t.position.offset
  /-- Lines and columns are counted in the text in front of the token. -/
  placed : ∀ t ∈ tokens,
    t.span file = .behind file (Text.slice source 0 t.position.offset).toList
  /-- There is no token in front of the first one. -/
  lead : ∀ t ∈ tokens.head?, ∀ front, front = Text.slice source 0 t.position.offset →
    scan file front = .ok [.endOf front]
  /-- From one token to the next, there is the first of them and no other one. -/
  slices : tokens.IsChain fun t u => ∀ piece,
    piece = Text.slice source t.position.offset u.position.offset →
      scan file piece = .ok [⟨t.kind, .start⟩, .endOf piece]

/-- A position in a text as one of the whole, if other lines with so many bytes stand above. -/
def Position.below (lines bytes : Nat) (p : Position) : Position :=
  { p with line := p.line + lines, offset := p.offset + bytes }

/-- A token of a text as one of the whole, if other lines with so many bytes stand above. -/
def Token.below (lines bytes : Nat) (t : Token) : Token :=
  { t with position := t.position.below lines bytes }

/-- A diagnostic about a text as one about the whole, if other lines stand above. -/
def Diagnostic.below (lines : Nat) (d : Diagnostic) : Diagnostic :=
  { d with span := { d.span with line := d.span.line + lines } }

end TypedConfig
