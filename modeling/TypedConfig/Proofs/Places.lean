import TypedConfig.Elaboration
import TypedConfig.Proofs.Inclusion
import TypedConfig.Proofs.Typing
/-!
Places, apart from any way to compute them. A token of a text stands behind lexemes that fill the
text in front of it, and its place counts the lines and columns there. Files take part in an
elaboration if they are the root or are reached through includes. A diagnostic points at a token of
such a file, or at what is no lexeme there.
-/
namespace TypedConfig

/-! ### Places in a text -/

/-- The place behind some text at the front of a file. Line feeds end lines, and the column counts
the characters of the last line. -/
def Span.behind (file : String) (before : List Char) : Span :=
  ⟨file, before.count '\n' + 1, (before.reverse.takeWhile (· != '\n')).length + 1⟩

/-- A text is cut into lexemes from its front on: `before` is what they fill, and `rest` is left. -/
inductive Lexeme.Cuts (text : List Char) : List Char → List Char → Prop where
  | start : Cuts text [] text
  | step {before cs : List Char} {c : Char} {l : Lexeme} (prior : Cuts text before (c :: cs))
      (last : Lexeme.next c cs = .ok l) : Cuts text (before ++ l.used) l.rest

/-- The first character of a token of a text, or the end of the text, stands at a place. -/
inductive Token.StartsAt (file source : String) : Span → Prop where
  | token {before cs : List Char} {c : Char} {l : Lexeme} {kind : Token.Kind}
      (cuts : Lexeme.Cuts source.toList before (c :: cs)) (next : Lexeme.next c cs = .ok l)
      (isToken : l.kind = some kind) : StartsAt file source (.behind file before)
  | endOfInput {before : List Char} (cuts : Lexeme.Cuts source.toList before []) :
      StartsAt file source (.behind file before)

/-- What cannot be read as a lexeme for some reason stands at a place. -/
inductive Lexeme.FailsAt (file source : String) (fault : LexFault) : Span → Prop where
  | intro {before cs : List Char} {c : Char}
      (cuts : Lexeme.Cuts source.toList before (c :: cs))
      (fails : Lexeme.next c cs = .error fault) :
      FailsAt file source fault (.behind file before)

/-! ### Places in what is read -/

/-- The places in a form that are not those of its parts. -/
def Form.places : Form → List Span
  | object _ entries opened => opened :: entries.map Entry.keySpan
  | variant _ _ (.fields entries) => entries.map Entry.keySpan
  | _ => []

/-- Every place in a written value is as told. -/
inductive Node.Placed (P : Span → Prop) : Node → Prop where
  | intro {form : Form} {span : Span} (here : P span) (own : ∀ s ∈ form.places, P s)
      (parts : ∀ part ∈ form.parts, Node.Placed P part) : Placed P ⟨form, span⟩

/-- Every place in an entry is as told. -/
def Entry.Placed (P : Span → Prop) (entry : Entry) : Prop := P entry.keySpan ∧ entry.value.Placed P

/-- The places in what an alternative is declared to carry. -/
def Payload.places : Payload Slot Field → List Span
  | unit => []
  | tuple slots => slots.map Slot.span
  | fields declared => declared.map Field.span

/-- The places in a declaration. -/
def Declaration.places (d : Declaration) : List Span :=
  d.span :: match d.body with
    | .record fields => fields.map Field.span
    | .choice variants => variants.flatMap fun v => v.span :: v.shape.places

/-- Every place in a declaration is as told. -/
def Declaration.Placed (P : Span → Prop) (d : Declaration) : Prop := ∀ s ∈ d.places, P s

/-- Every place in a document is as told. -/
structure Document.Placed (P : Span → Prop) (document : Document) : Prop where
  includes : ∀ directive ∈ document.includes, P directive.span
  declarations : ∀ d ∈ document.declarations, d.Placed P
  entries : ∀ entry ∈ document.root.entries, entry.Placed P

/-- Every place in some content is as told. -/
structure Content.Placed (P : Span → Prop) (content : Content) : Prop where
  declarations : ∀ d ∈ content.declarations, d.Placed P
  entries : ∀ entry ∈ content.entries, entry.Placed P

/-- Every place in the declarations and the entries of a bundle is as told. -/
structure Bundle.Placed (P : Span → Prop) (bundle : Bundle) : Prop where
  declarations : ∀ d ∈ bundle.declarations, d.Placed P
  entries : ∀ entry ∈ bundle.root.entries, entry.Placed P

/-! ### Places of diagnostics -/

/-- The places that the wording of a fault in tokens shows. -/
def SyntaxFault.mentions : SyntaxFault → List Span
  | unclosed _ opened => [opened]
  | wrongCloser _ _ opened => [opened]
  | _ => []

/-- The places that the wording of a fault in putting files together shows. -/
def IncludeFault.mentions : IncludeFault → List Span
  | duplicateDeclaration _ first => [first]
  | duplicateKey _ first => [first]
  | _ => []

/-- The places that the wording of a cause shows, besides that of the diagnostic. -/
def Cause.mentions : Cause → List Span
  | lexical _ => []
  | grammatical fault => fault.mentions
  | inclusion fault => fault.mentions
  | typing _ => []

/-- A diagnostic of a stage that points at a place which is as told, and so does every other place
that it shows. -/
structure Diagnostic.Within (stage : String) (P : Span → Prop) (d : Diagnostic) : Prop where
  stage : d.cause.stage = stage
  here : P d.span
  shown : ∀ s ∈ d.cause.mentions, P s

/-- A file takes part in the elaboration of a root: the root itself, under its path as given and
with the given text, and every other file that is reached through includes, under its normal path
and with the text that the library has for it. -/
inductive Library.TakesPart (lib : Library) (path : Path) (source : String) :
    String → String → Prop where
  | root : TakesPart lib path source path.text source
  | included {document : Document} {file : Path} {text : String}
      (parses : Document.parse path.text source = .ok document)
      (reached : Inclusion.Reachable lib path.normalize document file)
      (other : file ≠ path.normalize) (found : lib.files.lookup file = some text) :
      TakesPart lib path source file.text text

/-- The place is that of a token of a file that takes part. -/
def Span.IsToken (lib : Library) (path : Path) (source : String) (s : Span) : Prop :=
  ∃ name text, lib.TakesPart path source name text ∧ Token.StartsAt name text s

/-- A diagnostic points at a token of a file that takes part or, if no token could be read there, at
what could not; and so does every other place that it shows. -/
structure Diagnostic.Points (lib : Library) (path : Path) (source : String) (d : Diagnostic) :
    Prop where
  span : match d.cause with
    | .lexical fault =>
      ∃ name text, lib.TakesPart path source name text ∧ Lexeme.FailsAt name text fault d.span
    | _ => d.span.IsToken lib path source
  mentions : ∀ s ∈ d.cause.mentions, s.IsToken lib path source

/-! ### Outcomes -/

/-- What is told of an outcome: one thing of the diagnostic that ends it, another of its result. -/
def Outcome {α : Type} (stops : Diagnostic → Prop) (yields : α → Prop) :
    Except Diagnostic α → Prop
  | .ok a => yields a
  | .error d => stops d

namespace Outcome

variable {α β : Type} {stops : Diagnostic → Prop} {yields : α → Prop} {run : Except Diagnostic α}

theorem of_ok (outcome : Outcome stops yields run) {a : α} (runs : run = .ok a) : yields a := by
  rw [runs] at outcome
  exact outcome

theorem of_error (outcome : Outcome stops yields run) {d : Diagnostic} (fails : run = .error d) :
    stops d := by
  rw [fails] at outcome
  exact outcome

theorem mono {stops' : Diagnostic → Prop} (weaker : ∀ d, stops d → stops' d)
    (outcome : Outcome stops yields run) : Outcome stops' yields run := by
  cases run with
  | error d => exact weaker d outcome
  | ok a => exact outcome

/-- What is done with the result of a run that has one. -/
theorem bind {yields' : β → Prop} {f : α → Except Diagnostic β} (outcome : Outcome stops yields run)
    (behind : ∀ a, run = .ok a → yields a → Outcome stops yields' (f a)) :
    Outcome stops yields' (run >>= f) := by
  cases run with
  | error d => exact outcome
  | ok a => exact behind a rfl outcome

theorem map {yields' : β → Prop} {f : α → β} (onResult : ∀ a, yields a → yields' (f a))
    (outcome : Outcome stops yields run) : Outcome stops yields' (run.map f) := by
  cases run with
  | error d => exact outcome
  | ok a => exact onResult a outcome

end Outcome

end TypedConfig
