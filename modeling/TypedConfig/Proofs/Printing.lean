import Mathlib.Data.List.Forall2
import TypedConfig.Bundle
import TypedConfig.Configuration.Printer
import TypedConfig.Proofs.Grammar
import TypedConfig.Proofs.Typing
/-!
What printing keeps. Declarations are the same up to their places, which printing cannot keep, and
what is read from a text can be printed: its words are words, its tuples and enums are not empty,
and its keys are different.
-/
namespace TypedConfig

/-! ### Declarations without places -/

/-- A slot without its place. -/
def Slot.unplaced (s : Slot) : Slot := { s with span := default }

/-- A field without its place. -/
def Field.unplaced (f : Field) : Field := { f with span := default }

/-- What an alternative carries, without places. -/
def Payload.unplaced : Payload Slot Field → Payload Slot Field
  | unit => unit
  | tuple slots => tuple (slots.map Slot.unplaced)
  | fields declared => fields (declared.map Field.unplaced)

/-- An alternative without its place and those of its parts. -/
def Variant.unplaced (v : Variant) : Variant := ⟨v.name, v.shape.unplaced, default⟩

/-- What a declaration gives a name to, without places. -/
def Declaration.Body.unplaced : Declaration.Body → Declaration.Body
  | record fields => record (fields.map Field.unplaced)
  | choice variants => choice (variants.map Variant.unplaced)

/-- A declaration without its place and those of its parts. -/
def Declaration.unplaced (d : Declaration) : Declaration := ⟨d.name, d.body.unplaced, default⟩

/-! ### What source texts have -/

/-- Some source text is read as the document. -/
def Document.IsParsed (document : Document) : Prop :=
  ∃ file source, Document.parse file source = .ok document

/-- Some source text has the declaration. -/
def Declaration.IsParsed (d : Declaration) : Prop :=
  ∃ document : Document, document.IsParsed ∧ d ∈ document.declarations

/-- Following the includes of some source text gives the bundle. -/
def Bundle.IsResolved (bundle : Bundle) : Prop :=
  ∃ lib path visited, ∃ document : Document,
    document.IsParsed ∧ Bundle.resolve lib path visited document = .ok bundle

/-! ### Words -/

/-- A text that the lexer takes as one word. -/
def Token.IsWord (text : String) : Prop :=
  ∃ c cs, text.toList = c :: cs ∧ Lexeme.isWordStart c = true ∧
    ∀ d ∈ cs, Lexeme.isWordPart d = true

/-- Whether a text is a word can be computed from its characters. -/
theorem Token.isWord_of_all {text : String} {c : Char} {cs : List Char}
    (cut : text.toList = c :: cs) (first : Lexeme.isWordStart c = true)
    (others : cs.all Lexeme.isWordPart = true) : Token.IsWord text :=
  ⟨c, cs, cut, first, List.all_eq_true.1 others⟩

/-! ### Declarations that can be printed -/

/-- A type of words between so many square brackets. -/
inductive TypeExpr.Printable : Nat → TypeExpr → Prop where
  | word {room : Nat} {word : String} (isWord : Token.IsWord word) :
      Printable (room + 1) (.ofWord word)
  | array {room : Nat} {item : TypeExpr} (inner : Printable room item) :
      Printable (room + 1) (.array item)

/-- A field with a word as its name. -/
def Field.Printable (f : Field) : Prop := Token.IsWord f.name ∧ f.type.Printable maxNesting

/-- A tuple with slots, or fields of different names. -/
def Payload.Printable : Payload Slot Field → Prop
  | unit => True
  | tuple slots => slots ≠ [] ∧ ∀ s ∈ slots, s.type.Printable maxNesting
  | fields declared => (declared.map Field.name).Nodup ∧ ∀ f ∈ declared, f.Printable

/-- An alternative with a word as its name. -/
def Variant.Printable (v : Variant) : Prop := Token.IsWord v.name ∧ v.shape.Printable

/-- Fields of different names, or alternatives of different names. -/
def Declaration.Body.Printable : Declaration.Body → Prop
  | record fields => (fields.map Field.name).Nodup ∧ ∀ f ∈ fields, f.Printable
  | choice variants =>
    variants ≠ [] ∧ (variants.map Variant.name).Nodup ∧ ∀ v ∈ variants, v.Printable

/-- A declaration with a word as its name. -/
def Declaration.Printable (d : Declaration) : Prop := Token.IsWord d.name ∧ d.body.Printable

/-! ### Values that can be printed -/

/-- A tuple is not empty, and the fields are as told. -/
def Payload.Filled {slot field : Type} (each : List field → Prop) : Payload slot field → Prop
  | unit => True
  | tuple slots => slots ≠ []
  | fields declared => each declared

namespace Value

/-- The values that a payload holds. -/
def payloadParts : Payload Value (String × Value) → List Value
  | .unit => []
  | .tuple items => items
  | .fields fields => fields.map Prod.snd

/-- The values that a value holds. -/
def parts : Value → List Value
  | array items => items
  | object _ fields => fields.map Prod.snd
  | variant _ _ payload => payloadParts payload
  | _ => []

/-- An alternative without a payload, to which a bracket behind it would belong. -/
def GoesOn (value : Value) : Prop := ∃ enum name, value = variant enum name .unit

/-- An object without an annotation, which begins with a bracket. -/
def IsBare (value : Value) : Prop := ∃ fields, value = object none fields

/-- A name that begins a value. -/
def IsLabel (name : String) : Prop := Token.IsWord name ∧ ¬ Form.IsLiteralWord name

/-- Fields with different words as keys. -/
def Keyed (fields : List (String × Value)) : Prop :=
  (fields.map Prod.fst).Nodup ∧ ∀ field ∈ fields, Token.IsWord field.1

/-- What a value has to satisfy to be printed, apart from its parts. Where the items of an array
stand on lines of their own, no payload may come after an alternative without one. -/
def Spelled : Value → Prop
  | float x => x.isFinite = true
  | array items =>
    items.any isBlock = true → (∀ item ∈ items, ¬ item.GoesOn) ∨ ∀ item ∈ items, ¬ item.IsBare
  | object typeName fields => (∀ name ∈ typeName, IsLabel name) ∧ Keyed fields
  | variant enum name payload =>
    IsLabel enum ∧ Token.IsWord name ∧ payload.Filled Keyed
  | _ => True

/-- A value that can be printed and read again with room for so many levels. -/
def Printable : Nat → Value → Prop
  | 0, _ => False
  | room + 1, value => value.Spelled ∧ ∀ part ∈ value.parts, part.Printable room

/-! ### Written values -/

end Value

/-- Entries with different words as keys. -/
def Entry.Keyed (entries : List Entry) : Prop :=
  (entries.map Entry.key).Nodup ∧ ∀ entry ∈ entries, Token.IsWord entry.key

/-- What holds of the form of a written value that was read, apart from its parts. -/
def Form.Spelled : Form → Prop
  | float x => x.isFinite = true
  | object typeName entries _ => (∀ name ∈ typeName, Value.IsLabel name) ∧ Entry.Keyed entries
  | variant enum name payload =>
    Value.IsLabel enum ∧ Token.IsWord name ∧ payload.Filled Entry.Keyed
  | _ => True

/-- A written value that was read with room for so many levels. -/
def Node.Readable : Nat → Node → Prop
  | 0, _ => False
  | room + 1, node => node.form.Spelled ∧ ∀ part ∈ node.form.parts, part.Readable room

namespace Value

/-- The written values that are printed for a value. -/
inductive WrittenAs : Value → Node → Prop where
  | string {text : String} {span : Span} : WrittenAs (.string text) ⟨.string text, span⟩
  | integer {n : Int64} {span : Span} : WrittenAs (.integer n) ⟨.integer n, span⟩
  | float {x : Number.Binary64} {span : Span} : WrittenAs (.float x) ⟨.float x, span⟩
  | boolean {b : Bool} {span : Span} : WrittenAs (.boolean b) ⟨.boolean b, span⟩
  | null {span : Span} : WrittenAs .null ⟨.null, span⟩
  | url {u : Url} {span : Span} : WrittenAs (.url u) ⟨.extended .url (String.ofList u.text), span⟩
  | socket {a : SocketAddress} {span : Span} :
      WrittenAs (.socket a) ⟨.extended .socket (String.ofList a.text), span⟩
  | pubkey {k : PublicKey} {span : Span} :
      WrittenAs (.pubkey k) ⟨.extended .pubkey (String.ofList k.text), span⟩
  | array {values : List Value} {nodes : List Node} {span : Span}
      (each : List.Forall₂ WrittenAs values nodes) : WrittenAs (.array values) ⟨.array nodes, span⟩
  | object {typeName : Option String} {fields : List (String × Value)} {entries : List Entry}
      {opened span : Span} (keys : entries.map Entry.key = fields.map Prod.fst)
      (each : List.Forall₂ WrittenAs (fields.map Prod.snd) (entries.map Entry.value)) :
      WrittenAs (.object typeName fields) ⟨.object typeName entries opened, span⟩
  | unit {enum name : String} {span : Span} :
      WrittenAs (.variant enum name .unit) ⟨.variant enum name .unit, span⟩
  | tuple {enum name : String} {values : List Value} {nodes : List Node} {span : Span}
      (each : List.Forall₂ WrittenAs values nodes) :
      WrittenAs (.variant enum name (.tuple values)) ⟨.variant enum name (.tuple nodes), span⟩
  | fields {enum name : String} {fields : List (String × Value)} {entries : List Entry}
      {span : Span} (keys : entries.map Entry.key = fields.map Prod.fst)
      (each : List.Forall₂ WrittenAs (fields.map Prod.snd) (entries.map Entry.value)) :
      WrittenAs (.variant enum name (.fields fields)) ⟨.variant enum name (.fields entries), span⟩

/-! ### Urls -/

/-- A value is part of another one, at any depth. -/
inductive Holds : Value → Value → Prop where
  | self {value : Value} : Holds value value
  | part {value part inner : Value} (mem : part ∈ value.parts) (holds : Holds part inner) :
      Holds value inner

/-- The text of every URL in a value is read as that URL. -/
def Rereads (value : Value) : Prop := ∀ u, value.Holds (.url u) → Url.parse u.text = .ok u

end Value

end TypedConfig
