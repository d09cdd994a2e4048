import TypedConfig.Document
import TypedConfig.Number.DecimalText
/-!
The grammar of source files, apart from any way to read it. A production relates the tokens that
begin with a construct to what the construct stands for and to the tokens after it. Nesting is
counted down by an argument: a production with room for no levels derives nothing.
-/
namespace TypedConfig

/-- `R input a rest` says that the tokens `input` begin with a construct that stands for `a`, and go
on with `rest`. -/
abbrev Production (α : Type) := List Token → α → List Token → Prop

namespace Production

variable {α : Type}

/-- Any number of constructs, one behind the other. -/
inductive Many (item : Production α) : Production (List α) where
  | done {rest : List Token} : Many item rest [] rest
  | more {input middle rest : List Token} {a : α} {as : List α}
      (first : item input a middle) (others : Many item middle as rest) :
      Many item input (a :: as) rest

/-- The inside of a block up to and including the bracket that closes it. At most one comma follows
each item. -/
inductive Items (b : Bracket) (item : Production α) : Production (List α) where
  | close {t : Token} {rest : List Token} (closing : t.kind = .mark (.closing b)) :
      Items b item (t :: rest) [] rest
  | plain {input middle rest : List Token} {a : α} {as : List α}
      (first : item input a middle) (others : Items b item middle as rest) :
      Items b item input (a :: as) rest
  | separated {input middle rest : List Token} {t : Token} {a : α} {as : List α}
      (first : item input a (t :: middle)) (comma : t.kind = .mark .comma)
      (others : Items b item middle as rest) :
      Items b item input (a :: as) rest

/-- Items between brackets. -/
inductive Block (b : Bracket) (item : Production α) : Production (List α) where
  | intro {t : Token} {input rest : List Token} {as : List α}
      (opening : t.kind = .mark (.opening b)) (items : Items b item input as rest) :
      Block b item (t :: input) as rest

/-- The inside of a tuple up to and including the bracket that closes it: at least one slot, and
commas only between slots. -/
inductive Slots (slot : Production α) : Production (List α) where
  | last {input rest : List Token} {t : Token} {a : α}
      (first : slot input a (t :: rest)) (closing : t.kind = .mark (.closing .round)) :
      Slots slot input [a] rest
  | more {input middle rest : List Token} {t : Token} {a : α} {as : List α}
      (first : slot input a (t :: middle)) (comma : t.kind = .mark .comma)
      (others : Slots slot middle as rest) :
      Slots slot input (a :: as) rest

/-- Slots between round brackets. -/
inductive Tuple (slot : Production α) : Production (List α) where
  | intro {t : Token} {input rest : List Token} {as : List α}
      (opening : t.kind = .mark (.opening .round)) (slots : Slots slot input as rest) :
      Tuple slot (t :: input) as rest

/-- A block whose items have different keys. -/
def KeyedBlock (key : α → String) (item : Production α) : Production (List α) :=
  fun input as rest => Block .brace item input as rest ∧ (as.map key).Nodup

/-- What an alternative carries. A bracket that directly follows begins a payload. -/
inductive Payload {β : Type} (slot : Production α) (fields : Production (List β)) :
    Production (TypedConfig.Payload α β) where
  | unit {t : Token} {rest : List Token} (round : t.kind ≠ .mark (.opening .round))
      (brace : t.kind ≠ .mark (.opening .brace)) : Payload slot fields (t :: rest) .unit (t :: rest)
  | tuple {input rest : List Token} {as : List α} (slots : Tuple slot input as rest) :
      Payload slot fields input (.tuple as) rest
  | fields {input rest : List Token} {bs : List β} (block : fields input bs rest) :
      Payload slot fields input (.fields bs) rest

end Production

open Production

/-! ### Declarations -/

/-- A word, or a type between square brackets. -/
inductive TypeExpr.Derives : Nat → Production TypeExpr where
  | word {room : Nat} {t : Token} {rest : List Token} {text : String}
      (name : t.kind = .word text) : Derives (room + 1) (t :: rest) (.ofWord text) rest
  | array {room : Nat} {t u : Token} {input rest : List Token} {item : TypeExpr}
      (opening : t.kind = .mark (.opening .square)) (inner : Derives room input item (u :: rest))
      (closing : u.kind = .mark (.closing .square)) :
      Derives (room + 1) (t :: input) (.array item) rest

section

variable (file : String)

/-- A type as a slot of a tuple. -/
inductive Slot.Derives : Production Slot where
  | intro {t : Token} {input rest : List Token} {type : TypeExpr}
      (inner : TypeExpr.Derives maxNesting (t :: input) type rest) :
      Derives (t :: input) ⟨type, t.span file⟩ rest

/-- A name, a question mark for an optional field, a colon and a type. -/
inductive Field.Derives : Production Field where
  | required {t u : Token} {input rest : List Token} {name : String} {type : TypeExpr}
      (word : t.kind = .word name) (colon : u.kind = .mark .colon)
      (inner : TypeExpr.Derives maxNesting input type rest) :
      Derives (t :: u :: input) ⟨name, type, false, t.span file⟩ rest
  | optional {t u v : Token} {input rest : List Token} {name : String} {type : TypeExpr}
      (word : t.kind = .word name) (question : u.kind = .mark .question)
      (colon : v.kind = .mark .colon) (inner : TypeExpr.Derives maxNesting input type rest) :
      Derives (t :: u :: v :: input) ⟨name, type, true, t.span file⟩ rest

/-- Fields of different names between braces. -/
def Field.Block : Production (List Field) := KeyedBlock Field.name (Field.Derives file)

/-- A name and what the alternative carries. -/
inductive Variant.Derives : Production Variant where
  | intro {t : Token} {input rest : List Token} {name : String} {shape : Payload Slot Field}
      (word : t.kind = .word name)
      (carried : Production.Payload (Slot.Derives file) (Field.Block file) input shape rest) :
      Derives (t :: input) ⟨name, shape, t.span file⟩ rest

/-- A mark, one of two words, a name, and a block; an enum has at least one alternative. -/
inductive Declaration.Derives : Production Declaration where
  | record {t u v : Token} {input rest : List Token} {name : String} {fields : List Field}
      (mark : t.kind = .mark .atSign) (type : u.kind = .word "type") (word : v.kind = .word name)
      (block : Field.Block file input fields rest) :
      Derives (t :: u :: v :: input) ⟨name, .record fields, t.span file⟩ rest
  | choice {t u v : Token} {input rest : List Token} {name : String} {variants : List Variant}
      (mark : t.kind = .mark .atSign) (enum : u.kind = .word "enum") (word : v.kind = .word name)
      (block : KeyedBlock Variant.name (Variant.Derives file) input variants rest)
      (nonempty : variants ≠ []) :
      Derives (t :: u :: v :: input) ⟨name, .choice variants, t.span file⟩ rest

/-! ### Values -/

/-- A word, a colon and a value. -/
inductive Entry.Derives (value : Production Node) : Production Entry where
  | intro {t u : Token} {input rest : List Token} {key : String} {node : Node}
      (word : t.kind = .word key) (colon : u.kind = .mark .colon) (inner : value input node rest) :
      Derives value (t :: u :: input) ⟨key, t.span file, node⟩ rest

/-- Entries of different keys between braces. -/
def Entry.Block (value : Production Node) : Production (List Entry) :=
  KeyedBlock Entry.key (Entry.Derives file value)

/-- The words that are always literals. -/
def Form.IsLiteralWord (word : String) : Prop := word = "true" ∨ word = "false" ∨ word = "null"

/-- The forms of values whose parts are derived by the given production. -/
inductive Form.Derives (value : Production Node) : Production Form where
  | string {t : Token} {rest : List Token} {text : String} (quoted : t.kind = .quoted text) :
      Derives value (t :: rest) (.string text) rest
  | integer {t : Token} {rest : List Token} {n : Int64} (integer : t.kind = .integer n) :
      Derives value (t :: rest) (.integer n) rest
  | float {t : Token} {rest : List Token} {text : String} {x : Number.Binary64}
      (fraction : t.kind = .fraction text) (reads : Number.Binary64.read text.toList = some x) :
      Derives value (t :: rest) (.float x) rest
  | true {t : Token} {rest : List Token} (word : t.kind = .word "true") :
      Derives value (t :: rest) (.boolean true) rest
  | false {t : Token} {rest : List Token} (word : t.kind = .word "false") :
      Derives value (t :: rest) (.boolean false) rest
  | null {t : Token} {rest : List Token} (word : t.kind = .word "null") :
      Derives value (t :: rest) .null rest
  | array {input rest : List Token} {items : List Node}
      (block : Production.Block .square value input items rest) :
      Derives value input (.array items) rest
  | object {t : Token} {input rest : List Token} {entries : List Entry}
      (block : Entry.Block file value (t :: input) entries rest) :
      Derives value (t :: input) (.object none entries (t.span file)) rest
  | annotated {t u : Token} {input rest : List Token} {name : String} {entries : List Entry}
      (word : t.kind = .word name) (other : ¬ IsLiteralWord name)
      (block : Entry.Block file value (u :: input) entries rest) :
      Derives value (t :: u :: input) (.object (some name) entries (u.span file)) rest
  | extended {t u v w : Token} {rest : List Token} {word raw : String} {kind : Extended}
      (keyword : t.kind = .word word) (known : Extended.ofKeyword? word = some kind)
      (opening : u.kind = .mark (.opening .round)) (argument : v.kind = .quoted raw)
      (closing : w.kind = .mark (.closing .round)) :
      Derives value (t :: u :: v :: w :: rest) (.extended kind raw) rest
  | variant {t u v : Token} {input rest : List Token} {enum name : String}
      {payload : Payload Node Entry}
      (word : t.kind = .word enum) (other : ¬ IsLiteralWord enum) (dot : u.kind = .mark .dot)
      (alternative : v.kind = .word name)
      (carried : Production.Payload value (Entry.Block file value) input payload rest) :
      Derives value (t :: u :: v :: input) (.variant enum name payload) rest

/-- A value stands at its first token, and each part of it has room for one level less. -/
def Node.Derives : Nat → Production Node
  | 0 => fun _ _ _ => False
  | room + 1 => fun input node rest =>
    (∀ t ∈ input.head?, node.span = t.span file) ∧
      Form.Derives file (Node.Derives room) input node.form rest

/-! ### Files -/

/-- A mark, a word and a quoted path. -/
inductive Include.Derives : Production Include where
  | intro {t u v : Token} {rest : List Token} {path : String} (mark : t.kind = .mark .hash)
      (word : u.kind = .word "include") (quoted : v.kind = .quoted path) :
      Derives (t :: u :: v :: rest) ⟨path, t.span file⟩ rest

/-- Directives, declarations and one root object, up to the end of input. -/
inductive Document.Derives : List Token → Document → Prop where
  | intro {input middle body : List Token} {t last : Token} {includes : List Include}
      {declarations : List Declaration} {entries : List Entry}
      (directives : Many (Include.Derives file) input includes middle)
      (declared : Many (Declaration.Derives file) middle declarations (t :: body))
      (root : Entry.Block file (Node.Derives file maxNesting) (t :: body) entries [last])
      (ends : last.kind = .endOfInput) :
      Derives input ⟨includes, declarations, ⟨entries, t.span file⟩⟩

end

end TypedConfig
