import Mathlib.Data.List.Forall2
import TypedConfig.Elaboration
import TypedConfig.Proofs.Printing
/-!
Two runs side by side. Two documents that differ only in what does not matter are compared part by
part, together with what checking makes of them: the values that come out and what is reported.
What may differ is the places, the order of entries, and declarations that neither document names.
-/
namespace TypedConfig

/-- The same elements, in the same order unless the order is free. -/
def Shuffled {α : Type} (free : Prop) (as bs : List α) : Prop := as = bs ∨ free ∧ as.Perm bs

/-- Related elements, in the same order unless the order is free. -/
def Arranged {α β : Type} (free : Prop) (R : α → β → Prop) (as : List α) (bs : List β) : Prop :=
  ∃ middle, List.Forall₂ R as middle ∧ Shuffled free middle bs

/-- What two runs of the checker may differ in. -/
structure Tolerance where
  /-- Which places may stand for which. -/
  places : Span → Span → Prop
  /-- Whether entries may stand in another order. -/
  free : Prop
  /-- The names that are declared alike in both runs. -/
  names : String → Prop

/-- Only the order of entries may differ. -/
def Tolerance.order : Tolerance := ⟨Eq, True, fun _ => True⟩

/-- Only places may differ. -/
def Tolerance.layout : Tolerance := ⟨fun _ _ => True, False, fun _ => True⟩

/-- Only declarations of other than the given names may differ. -/
def Tolerance.declarations (names : String → Prop) : Tolerance := ⟨Eq, False, names⟩

/-- The same diagnostic at places that may stand for each other. -/
def Diagnostic.Varies (t : Tolerance) (d e : Diagnostic) : Prop :=
  d.cause = e.cause ∧ t.places d.span e.span

/-! ### Tokens -/

/-- Kinds of tokens are the same, but directives may include other paths, if these are related.
Some token follows a directive, if only the end of input. -/
inductive Token.SameKinds (Q : String → String → Prop) :
    List Token.Kind → List Token.Kind → Prop where
  | nil : SameKinds Q [] []
  | kind {k : Token.Kind} {ks ls : List Token.Kind} (others : SameKinds Q ks ls) :
      SameKinds Q (k :: ks) (k :: ls)
  | directive {i j : String} {k l : Token.Kind} {ks ls : List Token.Kind} (related : Q i j)
      (others : SameKinds Q (k :: ks) (l :: ls)) :
      SameKinds Q (.mark .hash :: .word "include" :: .quoted i :: k :: ks)
        (.mark .hash :: .word "include" :: .quoted j :: l :: ls)

/-! ### Written values -/

/-- A literal without parts. -/
def Form.IsScalar : Form → Prop
  | .array _ => False
  | .object .. => False
  | .variant .. => False
  | _ => True

mutual

/-- A written value is the same as another one up to what is tolerated. -/
inductive Node.Varies (t : Tolerance) : Node → Node → Prop where
  | scalar {form : Form} {span span' : Span} (scalar : form.IsScalar)
      (here : t.places span span') : Node.Varies t ⟨form, span⟩ ⟨form, span'⟩
  | array {items items' : List Node} {span span' : Span}
      (each : List.Forall₂ (Node.Varies t) items items') (here : t.places span span') :
      Node.Varies t ⟨.array items, span⟩ ⟨.array items', span'⟩
  | object {typeName : Option String} {entries middle entries' : List Entry}
      {opened opened' span span' : Span} (named : ∀ name ∈ typeName, t.names name)
      (each : List.Forall₂ (Entry.Varies t) entries middle)
      (order : Shuffled t.free middle entries') (brace : t.places opened opened')
      (here : t.places span span') :
      Node.Varies t ⟨.object typeName entries opened, span⟩
        ⟨.object typeName entries' opened', span'⟩
  | variant {enum name : String} {payload payload' : Payload Node Entry} {span span' : Span}
      (named : t.names enum) (carried : Payload.Varies t payload payload')
      (here : t.places span span') :
      Node.Varies t ⟨.variant enum name payload, span⟩ ⟨.variant enum name payload', span'⟩

/-- An entry has the same key as another one, and its value varies. -/
inductive Entry.Varies (t : Tolerance) : Entry → Entry → Prop where
  | intro {key : String} {keySpan keySpan' : Span} {value value' : Node}
      (here : t.places keySpan keySpan') (inner : Node.Varies t value value') :
      Entry.Varies t ⟨key, keySpan, value⟩ ⟨key, keySpan', value'⟩

/-- A payload has the same form as another one, and its parts vary. -/
inductive Payload.Varies (t : Tolerance) : Payload Node Entry → Payload Node Entry → Prop where
  | unit : Payload.Varies t .unit .unit
  | tuple {items items' : List Node} (each : List.Forall₂ (Node.Varies t) items items') :
      Payload.Varies t (.tuple items) (.tuple items')
  | fields {entries middle entries' : List Entry}
      (each : List.Forall₂ (Entry.Varies t) entries middle)
      (order : Shuffled t.free middle entries') :
      Payload.Varies t (.fields entries) (.fields entries')

end

/-- The entries of the root vary. -/
def Bundle.Varies (t : Tolerance) (bundle other : Bundle) : Prop :=
  Arranged t.free (Entry.Varies t) bundle.root.entries other.root.entries

/-! ### Values -/

mutual

/-- Values are the same up to the order of their fields, at any depth, if it is free. -/
inductive Value.Varies (free : Prop) : Value → Value → Prop where
  | leaf {value : Value} (whole : value.parts = []) : Value.Varies free value value
  | array {items items' : List Value} (each : List.Forall₂ (Value.Varies free) items items') :
      Value.Varies free (.array items) (.array items')
  | object {typeName : Option String} {fields middle fields' : List (String × Value)}
      (each : List.Forall₂ (Value.FieldVaries free) fields middle)
      (order : Shuffled free middle fields') :
      Value.Varies free (.object typeName fields) (.object typeName fields')
  | tuple {enum name : String} {items items' : List Value}
      (each : List.Forall₂ (Value.Varies free) items items') :
      Value.Varies free (.variant enum name (.tuple items)) (.variant enum name (.tuple items'))
  | fields {enum name : String} {fields middle fields' : List (String × Value)}
      (each : List.Forall₂ (Value.FieldVaries free) fields middle)
      (order : Shuffled free middle fields') :
      Value.Varies free (.variant enum name (.fields fields)) (.variant enum name (.fields fields'))

/-- Fields have the same key, and values that vary. -/
inductive Value.FieldVaries (free : Prop) : String × Value → String × Value → Prop where
  | intro {key : String} {value value' : Value} (inner : Value.Varies free value value') :
      Value.FieldVaries free (key, value) (key, value')

end

/-- Two documents of one layout each: they include related paths, and the rest is the same up to
places. -/
structure Document.Varies (Q : String → String → Prop) (document other : Document) : Prop where
  includes : List.Forall₂ (fun directive directive' => Q directive.path directive'.path)
    document.includes other.includes
  declarations : document.declarations.map Declaration.unplaced =
    other.declarations.map Declaration.unplaced
  entries : List.Forall₂ (Entry.Varies .layout) document.root.entries other.root.entries

/-- What files contribute varies: they are the same files, and what they hold is the same up to
places. -/
structure Content.Varies (content other : Content) : Prop where
  files : content.files = other.files
  declarations : content.declarations.map Declaration.unplaced =
    other.declarations.map Declaration.unplaced
  entries : List.Forall₂ (Entry.Varies .layout) content.entries other.entries

/-- The fields of the root vary. -/
def Configuration.Varies (free : Prop) (c d : Configuration) : Prop :=
  Arranged free (Value.FieldVaries free) c.fields d.fields

/-! ### Declarations -/

/-- A type refers to names that are as told. -/
def TypeExpr.Within (names : String → Prop) (type : TypeExpr) : Prop :=
  ∀ name, type.RefersTo name → names name

/-- The names of declarations that a form writes itself: annotations, and those of enums. -/
def Form.names : Form → List String
  | .object typeName _ _ => typeName.toList
  | .variant enum _ _ => [enum]
  | _ => []

/-- Every name of a declaration that a written value writes, at any depth, is as told. -/
inductive Node.Within (names : String → Prop) : Node → Prop where
  | intro {form : Form} {span : Span} (own : ∀ name ∈ form.names, names name)
      (parts : ∀ part ∈ form.parts, Node.Within names part) : Within names ⟨form, span⟩

/-- Every name of a declaration that the root writes is as told. -/
def Bundle.Within (names : String → Prop) (bundle : Bundle) : Prop :=
  ∀ entry ∈ bundle.root.entries, entry.value.Within names

/-- Two registries give some names the same meaning up to places, and the declarations of these
names refer to no others. -/
structure Registry.AgreesOn (names : String → Prop) (registry other : Registry) : Prop where
  alike : ∀ name, names name →
    (registry.get? name).map Declaration.unplaced = (other.get? name).map Declaration.unplaced
  closed : ∀ name d, names name → registry.get? name = some d → ∀ type ∈ d.types, type.Within names

/-! ### Outcomes -/

/-- What is reported varies, and so does the value, if there is one. -/
structure Verdict.Agrees {α β : Type} (t : Tolerance) (R : α → β → Prop) (v : Verdict α)
    (w : Verdict β) : Prop where
  errors : Arranged t.free (Diagnostic.Varies t) v.errors w.errors
  value? : Option.Rel R v.value? w.value?

/-- The verdict on the root of a bundle, apart from the references of the declarations. -/
def Bundle.verdict (registry : Registry) (options : Options) (bundle : Bundle) :
    Verdict Configuration :=
  (Verdict.all (Entry.checkAll registry options none bundle.root.entries)).map Configuration.mk

/-- Two runs end alike: with related results, or stopped by diagnostics of the same code. -/
inductive EndsAlike {α β : Type} (R : α → β → Prop) :
    Except Diagnostic α → Except Diagnostic β → Prop where
  | ok {a : α} {b : β} (related : R a b) : EndsAlike R (.ok a) (.ok b)
  | error {d e : Diagnostic} (code : d.cause.code = e.cause.code) :
      EndsAlike R (.error d) (.error e)

/-! ### Files -/

/-- Two paths that are written in a directory mean the same file. -/
def Path.Together (directory : Path) (i j : String) : Prop :=
  (directory.join i).normalize = (directory.join j).normalize

/-- Two texts of a file in a directory have tokens of the same kinds, apart from paths in directives
that mean the same file, or can both not be read as tokens, for reasons of the same code. -/
def Token.ScanAlike (directory : Path) (source other : String) : Prop :=
  ∀ file file', EndsAlike
    (fun ts us => SameKinds directory.Together (ts.map Token.kind) (us.map Token.kind))
    (scan file source) (scan file' other)

/-- The front of a text is cut into lexemes, of which some are tokens of the given kinds, and the
rest is left. -/
inductive Lexeme.Reads : List Char → List Token.Kind → List Char → Prop where
  | done {cs : List Char} : Reads cs [] cs
  | step {c : Char} {cs rest : List Char} {l : Lexeme} {kinds : List Token.Kind}
      (first : Lexeme.next c cs = .ok l) (others : Reads l.rest kinds rest) :
      Reads (c :: cs) (l.kind.toList ++ kinds) rest

/-- Some paths in the directives of a text are spelled in another way: where a directive has been
read up to its path, another quoted text stands for that, and it means the same file, seen from the
directory of the text. -/
inductive Token.Respelled (directory : Path) : List Char → List Char → Prop where
  | same {text : List Char} : Respelled directory text text
  | literal {front written written' back back' : List Char} {kinds : List Token.Kind}
      {i j : String}
      (reads : Lexeme.Reads (front ++ '"' :: (written ++ back))
        (kinds ++ [.mark .hash, .word "include"]) ('"' :: (written ++ back)))
      (path : Lexeme.next '"' (written ++ back) =
        .ok ⟨some (.quoted i), '"' :: written, back⟩)
      (path' : Lexeme.next '"' (written' ++ back') =
        .ok ⟨some (.quoted j), '"' :: written', back'⟩)
      (together : directory.Together i j) (others : Respelled directory back back') :
      Respelled directory (front ++ '"' :: (written ++ back))
        (front ++ '"' :: (written' ++ back'))

/-- Two libraries have the same files, with texts that are alike. -/
structure Library.Alike (lib other : Library) : Prop where
  storage : lib.storage = other.storage
  texts : ∀ file : Path, Option.Rel (Token.ScanAlike file.directory) (lib.files.lookup file)
    (other.files.lookup file)

/-- Two elaborations give the same configuration, or fail with the same codes in the same order. -/
def Configuration.SameOutcome (run other : Except (List Diagnostic) Configuration) : Prop :=
  (∃ c, run = .ok c ∧ other = .ok c) ∨
    ∃ ds es, run = .error ds ∧ other = .error es ∧ ds.map (·.cause.code) = es.map (·.cause.code)

end TypedConfig
