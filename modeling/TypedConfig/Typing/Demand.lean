import TypedConfig.Node
import TypedConfig.Number.Rounding
import TypedConfig.Registry
import TypedConfig.Typing.Verdict
import TypedConfig.Value
/-!
What a position of a document demands of the value in it. A declared type demands literals of its
kind; a position without a declared type, and one whose type names no declaration, takes anything.
-/
namespace TypedConfig

/-- What is checked beyond the declarations. -/
structure Options where
  strictPubkey : Bool
deriving Repr, DecidableEq

/-- By default a public key need not be a point of the curve. -/
def Options.default : Options := ⟨false⟩

/-- What a position demands. -/
inductive Demand where
  | anything
  | string
  | integer
  | float
  | boolean
  | extended (kind : Extended)
  | array (item : TypeExpr)
  | record (name : String) (fields : List Field)
  | choice (name : String) (variants : List Variant)
deriving Repr, DecidableEq

namespace Demand

/-- How diagnostics name what is demanded. -/
def text : Demand → String
  | anything => "anything"
  | string => "string"
  | integer => "int"
  | float => "float"
  | boolean => "bool"
  | extended kind => kind.keyword
  | array item => (TypeExpr.array item).text
  | record name _ => name
  | choice name _ => name

/-- The value does not fit the demand. -/
def mismatch (demand : Demand) (form : Form) (span : Span) : Diagnostic :=
  ⟨.typing (.mismatch demand.text form.describe), span⟩

end Demand

/-- What a declared type demands, and what a position without one does. -/
def Registry.demand (registry : Registry) : Option TypeExpr → Demand
  | none => .anything
  | some .string => .string
  | some .integer => .integer
  | some .float => .float
  | some .boolean => .boolean
  | some (.extended kind) => .extended kind
  | some (.array item) => .array item
  | some (.named name) =>
    match (registry.get? name).map Declaration.body with
    | none => .anything
    | some (.record fields) => .record name fields
    | some (.choice variants) => .choice name variants

/-! ### Scalars -/

/-- What the text of an extended literal denotes. -/
def Options.denote (options : Options) (kind : Extended) (raw : String) : Except TypeFault Value :=
  match kind with
  | .url => ((Url.parse raw.toList).map .url).mapError (.url raw)
  | .socket => ((SocketAddress.parse raw.toList).map .socket).mapError (.socket raw)
  | .pubkey =>
    ((PublicKey.parse options.strictPubkey raw.toList).map .pubkey).mapError (.pubkey raw)

/-- Checks the text of an extended literal. -/
def Options.checkExtended (options : Options) (kind : Extended) (raw : String) (span : Span) :
    Verdict Value :=
  match options.denote kind raw with
  | .ok value => .accept value
  | .error fault => .refuse ⟨.typing fault, span⟩

/-- Checks a literal that has no parts. An integer counts as a floating-point number where one is
demanded, and a quoted text as an extended literal. -/
def Demand.checkScalar (options : Options) (demand : Demand) (form : Form) (span : Span) :
    Verdict Value :=
  match demand, form with
  | .anything, .string text => .accept (.string text)
  | .anything, .integer n => .accept (.integer n)
  | .anything, .float x => .accept (.float x)
  | .anything, .boolean b => .accept (.boolean b)
  | .anything, .null => .accept .null
  | .anything, .extended kind raw => options.checkExtended kind raw span
  | .string, .string text => .accept (.string text)
  | .integer, .integer n => .accept (.integer n)
  | .float, .float x => .accept (.float x)
  | .float, .integer n => .accept (.float (.ofInteger n))
  | .boolean, .boolean b => .accept (.boolean b)
  | .extended kind, .string raw => options.checkExtended kind raw span
  | .extended kind, .extended found raw =>
    if found = kind then options.checkExtended kind raw span
    else .refuse (demand.mismatch form span)
  | _, _ => .refuse (demand.mismatch form span)

/-! ### Plans

How the parts of a value are to be checked follows from the demand on the value and from the names
that the value carries.
-/

/-- How to check the parts of a value: as a declaration says, or, when the value itself is at fault,
as parts of undeclared positions or not at all. -/
inductive Plan (α : Type) where
  | declared (how : α)
  | undeclared (faults : List Diagnostic)
  | skipped (fault : Diagnostic)
deriving Repr

/-- Named fields, with what diagnostics call their owner. -/
structure OwnedFields where
  owner : String
  fields : List Field
deriving Repr, DecidableEq

/-- The fields of a declared type. -/
def OwnedFields.ofType (name : String) (fields : List Field) : OwnedFields :=
  ⟨"type " ++ name, fields⟩

/-- How to check the entries of an object. An annotation is the name of a declared type, and where a
declared type is demanded it is that type. -/
def Demand.objectPlan (registry : Registry) (demand : Demand) (typeName : Option String)
    (opened span : Span) : Plan OwnedFields :=
  let mismatch := demand.mismatch (.object typeName [] opened) span
  match demand, typeName with
  | .anything, none => .undeclared []
  | .anything, some name =>
    match (registry.get? name).map Declaration.body with
    | some (.record fields) => .declared (.ofType name fields)
    | some (.choice _) => .skipped ⟨.typing (.mismatch "a @type name" ("@enum " ++ name)), opened⟩
    | none => .undeclared [⟨.typing (.unknownType name), opened⟩]
  | .record name fields, none => .declared (.ofType name fields)
  | .record name fields, some other =>
    if other = name then .declared (.ofType name fields) else .undeclared [mismatch]
  | _, _ => .skipped mismatch

/-- Whether a payload has the form that was declared, tuples with the same number of slots. -/
def Payload.fits {α β γ δ : Type} : Payload α β → Payload γ δ → Bool
  | .unit, .unit => true
  | .tuple slots, .tuple items => slots.length == items.length
  | .fields _, .fields _ => true
  | _, _ => false

/-- How to check the payload of an alternative of a declared enum. -/
def variantPlan (enum : String) (variants : List Variant) (name : String)
    (payload : Payload Node Entry) (span : Span) : Plan (Payload Slot Field) :=
  match variants.find? (·.name = name) with
  | none => .undeclared [⟨.typing (.unknownVariant enum name), span⟩]
  | some v =>
    if v.shape.fits payload then .declared v.shape
    else
      .undeclared [⟨.typing (.shapeMismatch (Value.variantPath enum name) v.shape.describe
        payload.describe), span⟩]

/-- How to check the payload of an alternative. Where an enum is demanded it is one of that enum. -/
def Demand.variantPlan (registry : Registry) (demand : Demand) (enum name : String)
    (payload : Payload Node Entry) (span : Span) : Plan (Payload Slot Field) :=
  let mismatch := demand.mismatch (.variant enum name payload) span
  match demand with
  | .anything =>
    match (registry.get? enum).map Declaration.body with
    | some (.choice variants) => TypedConfig.variantPlan enum variants name payload span
    | some (.record _) =>
      .undeclared [⟨.typing (.mismatch "an @enum name" ("@type " ++ enum)), span⟩]
    | none => .undeclared [⟨.typing (.unknownType enum), span⟩]
  | .choice declared variants =>
    if enum = declared then TypedConfig.variantPlan enum variants name payload span
    else .undeclared [mismatch]
  | _ => .skipped mismatch

/-- How to check the value of one entry. -/
structure EntryPlan where
  faults : List Diagnostic
  optional : Bool
  type? : Option TypeExpr
deriving Repr

/-- A key of an undeclared object takes any value, a declared key one of its type; another key is a
fault. -/
def EntryPlan.ofKey (declared? : Option OwnedFields) (key : String) (keySpan : Span) : EntryPlan :=
  match declared? with
  | none => ⟨[], false, none⟩
  | some declared =>
    match declared.fields.find? (·.name = key) with
    | some field => ⟨[], field.optional, some field.type⟩
    | none => ⟨[⟨.typing (.unknownField declared.owner key), keySpan⟩], false, none⟩

/-- Reports the declared fields that have to be present and are not. -/
def OwnedFields.missing (declared : OwnedFields) (entries : List Entry) (span : Span) :
    List Diagnostic :=
  (declared.fields.filter fun f => !f.optional && !entries.any (·.key = f.name)).map fun f =>
    ⟨.typing (.missingField declared.owner f.name), span⟩

end TypedConfig
