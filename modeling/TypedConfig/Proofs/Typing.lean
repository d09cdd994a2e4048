import TypedConfig.Typing.Demand
import TypedConfig.Typing.Homogeneity
/-!
The typing of written values, apart from any way to check it. A value in a position of a declared
type has that type, and one in a position without a declared type is acceptable; in both cases it
becomes a checked value. Parts of a value are typed pairwise with the parts of what it becomes.
-/
namespace TypedConfig

/-- Membership in a class of values that may stand in one array. Null belongs to every class. -/
inductive Value.OfClass : ItemClass → Value → Prop where
  | null {c : ItemClass} : OfClass c .null
  | integer {n : Int64} : OfClass .number (.integer n)
  | float {x : Number.Binary64} : OfClass .number (.float x)
  | variant {enum name : String} {payload : Payload Value (String × Value)} :
      OfClass (.enum enum) (.variant enum name payload)
  | other {value : Value} (plain : value.kind ∉ [.null, .integer, .float, .enum]) :
      OfClass (.other value.kind) value

/-- All values belong to one class. -/
def Value.Homogeneous (values : List Value) : Prop := ∃ c, ∀ value ∈ values, OfClass c value

section

variable (registry : Registry) (options : Options)

mutual

/-- A written value has a declared type and becomes a checked value. -/
inductive Node.HasType : TypeExpr → Node → Value → Prop where
  | string {text : String} {span : Span} : Node.HasType .string ⟨.string text, span⟩ (.string text)
  | integer {n : Int64} {span : Span} : Node.HasType .integer ⟨.integer n, span⟩ (.integer n)
  | float {x : Number.Binary64} {span : Span} : Node.HasType .float ⟨.float x, span⟩ (.float x)
  | widened {n : Int64} {span : Span} : Node.HasType .float ⟨.integer n, span⟩ (.float (.ofInteger n))
  | boolean {b : Bool} {span : Span} : Node.HasType .boolean ⟨.boolean b, span⟩ (.boolean b)
  | quoted {kind : Extended} {raw : String} {span : Span} {value : Value}
      (denotes : options.denote kind raw = .ok value) :
      Node.HasType (.extended kind) ⟨.string raw, span⟩ value
  | extended {kind : Extended} {raw : String} {span : Span} {value : Value}
      (denotes : options.denote kind raw = .ok value) :
      Node.HasType (.extended kind) ⟨.extended kind raw, span⟩ value
  | array {item : TypeExpr} {items : List Node} {values : List Value} {span : Span}
      (lengths : items.length = values.length)
      (each : ∀ node value, (node, value) ∈ items.zip values → Node.HasType item node value) :
      Node.HasType (.array item) ⟨.array items, span⟩ (.array values)
  | record {name : String} {declaration : Declaration} {fields : List Field}
      {typeName : Option String} {entries : List Entry} {values : List (String × Value)}
      {opened span : Span} (found : registry.get? name = some declaration)
      (body : declaration.body = .record fields) (label : ∀ other ∈ typeName, other = name)
      (block : Entry.Fill fields entries values) :
      Node.HasType (.named name) ⟨.object typeName entries opened, span⟩ (.object typeName values)
  | choice {enum name : String} {declaration : Declaration} {variants : List Variant}
      {variant : Variant} {payload : Payload Node Entry} {value : Payload Value (String × Value)}
      {span : Span} (found : registry.get? enum = some declaration)
      (body : declaration.body = .choice variants)
      (alternative : variants.find? (·.name = name) = some variant)
      (carried : Payload.HasShape variant.shape payload value) :
      Node.HasType (.named enum) ⟨.variant enum name payload, span⟩ (.variant enum name value)
  | undeclared {name : String} {node : Node} {value : Value} (unknown : registry.get? name = none)
      (acceptable : Node.Acceptable node value) : Node.HasType (.named name) node value

/-- A written value is acceptable where no type is declared, and becomes a checked value. -/
inductive Node.Acceptable : Node → Value → Prop where
  | string {text : String} {span : Span} : Node.Acceptable ⟨.string text, span⟩ (.string text)
  | integer {n : Int64} {span : Span} : Node.Acceptable ⟨.integer n, span⟩ (.integer n)
  | float {x : Number.Binary64} {span : Span} : Node.Acceptable ⟨.float x, span⟩ (.float x)
  | boolean {b : Bool} {span : Span} : Node.Acceptable ⟨.boolean b, span⟩ (.boolean b)
  | null {span : Span} : Node.Acceptable ⟨.null, span⟩ .null
  | extended {kind : Extended} {raw : String} {span : Span} {value : Value}
      (denotes : options.denote kind raw = .ok value) : Node.Acceptable ⟨.extended kind raw, span⟩ value
  | array {items : List Node} {values : List Value} {span : Span}
      (lengths : items.length = values.length)
      (each : ∀ node value, (node, value) ∈ items.zip values → Node.Acceptable node value)
      (homogeneous : Value.Homogeneous values) : Node.Acceptable ⟨.array items, span⟩ (.array values)
  | object {entries : List Entry} {values : List (String × Value)} {opened span : Span}
      (keys : entries.map Entry.key = values.map Prod.fst)
      (each : ∀ entry value, (entry, value) ∈ entries.zip values →
        Node.Acceptable entry.value value.2) :
      Node.Acceptable ⟨.object none entries opened, span⟩ (.object none values)
  | record {name : String} {declaration : Declaration} {fields : List Field}
      {entries : List Entry} {values : List (String × Value)} {opened span : Span}
      (found : registry.get? name = some declaration) (body : declaration.body = .record fields)
      (block : Entry.Fill fields entries values) :
      Node.Acceptable ⟨.object (some name) entries opened, span⟩ (.object (some name) values)
  | choice {enum name : String} {declaration : Declaration} {variants : List Variant}
      {variant : Variant} {payload : Payload Node Entry} {value : Payload Value (String × Value)}
      {span : Span} (found : registry.get? enum = some declaration)
      (body : declaration.body = .choice variants)
      (alternative : variants.find? (·.name = name) = some variant)
      (carried : Payload.HasShape variant.shape payload value) :
      Node.Acceptable ⟨.variant enum name payload, span⟩ (.variant enum name value)

/-- A written value fits a declared field: it has the type of the field, or is the null of an
optional one. -/
inductive Field.Takes : Field → Node → Value → Prop where
  | typed {field : Field} {node : Node} {value : Value}
      (typed : Node.HasType field.type node value) : Field.Takes field node value
  | null {field : Field} {span : Span} (optional : field.optional = true) :
      Field.Takes field ⟨.null, span⟩ .null

/-- Entries fill declared fields: every field that is not optional is there, every key is that of a
field, and every value fits its field. -/
inductive Entry.Fill : List Field → List Entry → List (String × Value) → Prop where
  | intro {fields : List Field} {entries : List Entry} {values : List (String × Value)}
      (present : ∀ field ∈ fields, field.optional = false →
        ∃ entry ∈ entries, entry.key = field.name)
      (declared : ∀ entry ∈ entries, ∃ field, fields.find? (·.name = entry.key) = some field)
      (keys : entries.map Entry.key = values.map Prod.fst)
      (each : ∀ entry value field, (entry, value) ∈ entries.zip values →
        fields.find? (·.name = entry.key) = some field → Field.Takes field entry.value value.2) :
      Entry.Fill fields entries values

/-- A written payload has the declared shape, with exactly as many slots in a tuple. -/
inductive Payload.HasShape : Payload Slot Field → Payload Node Entry →
    Payload Value (String × Value) → Prop where
  | unit : Payload.HasShape .unit .unit .unit
  | tuple {slots : List Slot} {items : List Node} {values : List Value}
      (arity : slots.length = items.length) (lengths : items.length = values.length)
      (each : ∀ slot node value, ((slot, node), value) ∈ (slots.zip items).zip values →
        Node.HasType slot.type node value) :
      Payload.HasShape (.tuple slots) (.tuple items) (.tuple values)
  | fields {fields : List Field} {entries : List Entry} {values : List (String × Value)}
      (block : Entry.Fill fields entries values) :
      Payload.HasShape (.fields fields) (.fields entries) (.fields values)

end

/-- A written value fits a position with a declared type, or without one. -/
def Node.Fits : Option TypeExpr → Node → Value → Prop
  | none => Node.Acceptable registry options
  | some type => Node.HasType registry options type

end

/-! ### References -/

/-- A type refers to a name, at any depth of arrays. -/
inductive TypeExpr.RefersTo : TypeExpr → String → Prop where
  | named {name : String} : RefersTo (.named name) name
  | array {item : TypeExpr} {name : String} (inner : RefersTo item name) :
      RefersTo (.array item) name

/-- The types in the declaration of an alternative. -/
def Payload.types : Payload Slot Field → List TypeExpr
  | .unit => []
  | .tuple slots => slots.map Slot.type
  | .fields declared => declared.map Field.type

/-- The types in a declaration. -/
def Declaration.types (d : Declaration) : List TypeExpr :=
  match d.body with
  | .record fields => fields.map Field.type
  | .choice variants => variants.flatMap fun variant => variant.shape.types

/-- Every name that a declaration refers to is declared. -/
def Registry.Resolved (registry : Registry) : Prop :=
  ∀ d ∈ registry.declarations, ∀ type ∈ d.types, ∀ name, type.RefersTo name →
    ∃ target ∈ registry.declarations, target.name = name

/-! ### Induction over written values -/

/-- The written values that a payload holds. -/
def Payload.parts : Payload Node Entry → List Node
  | .unit => []
  | .tuple items => items
  | .fields entries => entries.map Entry.value

/-- The written values that a form holds. -/
def Form.parts : Form → List Node
  | .array items => items
  | .object _ entries _ => entries.map Entry.value
  | .variant _ _ payload => payload.parts
  | _ => []

theorem Entry.sizeOf_value_lt {entries : List Entry} {part : Node}
    (mem : part ∈ entries.map Entry.value) : sizeOf part < sizeOf entries := by
  obtain ⟨⟨key, keySpan, node⟩, hEntry, rfl⟩ := List.mem_map.1 mem
  have hSize := List.sizeOf_lt_of_mem hEntry
  simp only [Entry.mk.sizeOf_spec] at hSize ⊢
  omega

theorem Form.sizeOf_part_lt {form : Form} {part : Node} (mem : part ∈ form.parts) :
    sizeOf part < sizeOf form := by
  cases form with
  | array items =>
      have hSize : sizeOf part < sizeOf items := List.sizeOf_lt_of_mem mem
      simp only [array.sizeOf_spec]
      omega
  | object typeName entries opened =>
      have hSize : sizeOf part < sizeOf entries := Entry.sizeOf_value_lt mem
      simp only [object.sizeOf_spec]
      omega
  | variant enum name payload =>
      have hSize : sizeOf part < sizeOf payload := by
        cases payload with
        | unit => cases mem
        | tuple items =>
            have hItems : sizeOf part < sizeOf items := List.sizeOf_lt_of_mem mem
            simp only [Payload.tuple.sizeOf_spec]
            omega
        | fields entries =>
            have hEntries : sizeOf part < sizeOf entries := Entry.sizeOf_value_lt mem
            simp only [Payload.fields.sizeOf_spec]
            omega
      simp only [variant.sizeOf_spec]
      omega
  | _ => cases mem

/-- What passes from the parts of a written value to the value itself holds for all of them. -/
theorem Node.induct {motive : Node → Prop}
    (step : ∀ form span, (∀ part ∈ form.parts, motive part) → motive ⟨form, span⟩) (node : Node) :
    motive node := by
  obtain ⟨form, span⟩ := node
  refine step form span fun part mem => Node.induct step part
termination_by sizeOf node
decreasing_by
  have hSize := Form.sizeOf_part_lt mem
  simp only [Node.mk.sizeOf_spec]
  omega

end TypedConfig
