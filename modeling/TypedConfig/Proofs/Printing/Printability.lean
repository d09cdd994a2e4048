import TypedConfig.Proofs.Printing.Reading
import TypedConfig.Proofs.Typing.Exactness
/-!
The values of a checked document can be printed. What matters are the arrays: no item that could go
on with a payload stands in one array with an object that begins with a bracket, since the items
have one declared type or belong to one class.
-/
namespace TypedConfig

variable {registry : Registry} {options : Options}

/-- Whether every name that a type refers to is declared. -/
def Registry.Declares (registry : Registry) (type : TypeExpr) : Prop :=
  ∀ name, type.RefersTo name → ∃ target ∈ registry.declarations, target.name = name

theorem Registry.Declares.get? {name : String} (declares : registry.Declares (.named name)) :
    registry.get? name ≠ none := by
  obtain ⟨target, hMem, hName⟩ := declares name .named
  intro hNone
  exact List.find?_eq_none.1 hNone target hMem (by simp [hName])

theorem Registry.Declares.item {item : TypeExpr} (declares : registry.Declares (.array item)) :
    registry.Declares item :=
  fun name refers => declares name (.array refers)

/-- A name stands for one declaration. -/
theorem Registry.body_eq {name : String} {d d' : Declaration} {body body' : Declaration.Body}
    (found : registry.get? name = some d) (hBody : d.body = body)
    (found' : registry.get? name = some d') (hBody' : d'.body = body') : body = body' := by
  rw [found] at found'
  cases found'
  exact hBody.symm.trans hBody'

theorem Registry.Resolved.record {name : String} {d : Declaration} {fields : List Field}
    (resolved : registry.Resolved) (found : registry.get? name = some d)
    (body : d.body = .record fields) : ∀ field ∈ fields, registry.Declares field.type := by
  intro field mem
  apply resolved d (List.mem_of_find?_eq_some found)
  rw [Declaration.types, body]
  exact List.mem_map_of_mem mem

theorem Registry.Resolved.choice {enum name : String} {d : Declaration} {variants : List Variant}
    {variant : Variant} (resolved : registry.Resolved) (found : registry.get? enum = some d)
    (body : d.body = .choice variants) (alternative : variants.find? (·.name = name) = some variant) :
    ∀ type ∈ variant.shape.types, registry.Declares type := by
  intro type mem
  apply resolved d (List.mem_of_find?_eq_some found)
  rw [Declaration.types, body]
  exact List.mem_flatMap.2 ⟨variant, List.mem_of_find?_eq_some alternative, mem⟩

/-- The kind of the values that an extended literal may denote. -/
def Extended.valueKind : Extended → Value.Kind
  | url => .url
  | socket => .socket
  | pubkey => .pubkey

/-- What an extended literal denotes is a value of its kind. -/
theorem Options.denote_eq_ok {kind : Extended} {raw : String} {value : Value}
    (denotes : options.denote kind raw = .ok value) :
    (∃ u, kind = .url ∧ value = .url u ∧ Url.parse raw.toList = .ok u) ∨
    (∃ a, kind = .socket ∧ value = .socket a ∧ SocketAddress.parse raw.toList = .ok a) ∨
    ∃ k, kind = .pubkey ∧ value = .pubkey k ∧
      PublicKey.parse options.strictPubkey raw.toList = .ok k := by
  cases kind with
  | url =>
      rw [denote] at denotes
      cases hParse : Url.parse raw.toList with
      | error fault =>
          rw [hParse] at denotes
          cases denotes
      | ok u =>
          rw [hParse] at denotes
          cases denotes
          exact .inl ⟨u, rfl, rfl, rfl⟩
  | socket =>
      rw [denote] at denotes
      cases hParse : SocketAddress.parse raw.toList with
      | error fault =>
          rw [hParse] at denotes
          cases denotes
      | ok a =>
          rw [hParse] at denotes
          cases denotes
          exact .inr (.inl ⟨a, rfl, rfl, rfl⟩)
  | pubkey =>
      rw [denote] at denotes
      cases hParse : PublicKey.parse options.strictPubkey raw.toList with
      | error fault =>
          rw [hParse] at denotes
          cases denotes
      | ok k =>
          rw [hParse] at denotes
          cases denotes
          exact .inr (.inr ⟨k, rfl, rfl, rfl⟩)

namespace Value

/-- Values that may stand together in an array: no payload of one can be taken for another. -/
def Together (values : List Value) : Prop :=
  (∀ value ∈ values, ¬ value.GoesOn) ∨ ∀ value ∈ values, ¬ value.IsBare

theorem ofClass_of_kind {value : Value} {kind : Kind} (same : value.kind = kind)
    (plain : kind ∉ [Kind.null, .integer, .float, .enum]) :
    OfClass (.other kind) value ∧ value ≠ .null := by
  subst same
  apply And.intro (.other plain)
  intro h
  rw [h] at plain
  exact plain List.mem_cons_self

/-- What an extended literal denotes belongs to the class of its kind. -/
theorem ofClass_of_denotes {kind : Extended} {raw : String} {value : Value}
    (denotes : options.denote kind raw = .ok value) :
    OfClass (.other kind.valueKind) value ∧ value ≠ .null := by
  rcases Options.denote_eq_ok denotes with ⟨u, rfl, rfl, -⟩ | ⟨a, rfl, rfl, -⟩ | ⟨k, rfl, rfl, -⟩
  · exact ofClass_of_kind rfl (by decide)
  · exact ofClass_of_kind rfl (by decide)
  · exact ofClass_of_kind rfl (by decide)

/-- The values of a declared type belong to one class, and null is none of them. -/
theorem exists_ofClass {type : TypeExpr} (declares : registry.Declares type) :
    ∃ c, ∀ node value, Node.HasType registry options type node value →
      OfClass c value ∧ value ≠ .null := by
  cases type with
  | string =>
      refine ⟨.other .string, fun node value typed => ?_⟩
      cases typed
      exact ofClass_of_kind rfl (by decide)
  | integer =>
      refine ⟨.number, fun node value typed => ?_⟩
      cases typed
      exact ⟨.integer, nofun⟩
  | float =>
      refine ⟨.number, fun node value typed => ?_⟩
      cases typed with
      | float => exact ⟨.float, nofun⟩
      | widened => exact ⟨.float, nofun⟩
  | boolean =>
      refine ⟨.other .boolean, fun node value typed => ?_⟩
      cases typed
      exact ofClass_of_kind rfl (by decide)
  | extended kind =>
      refine ⟨.other kind.valueKind, fun node value typed => ?_⟩
      cases typed with
      | quoted denotes | extended denotes => exact ofClass_of_denotes denotes
  | array item =>
      refine ⟨.other .array, fun node value typed => ?_⟩
      cases typed
      exact ofClass_of_kind rfl (by decide)
  | named name =>
      obtain ⟨d, hFound⟩ := Option.ne_none_iff_exists'.1 declares.get?
      cases hBody : d.body with
      | record fields =>
          refine ⟨.other .object, fun node value typed => ?_⟩
          cases typed with
          | record found body label block => exact ofClass_of_kind rfl (by decide)
          | choice found body _ _ => cases Registry.body_eq hFound hBody found body
          | undeclared unknown _ => exact absurd unknown declares.get?
      | choice variants =>
          refine ⟨.enum name, fun node value typed => ?_⟩
          cases typed with
          | choice found body alternative carried => exact ⟨.variant, nofun⟩
          | record found body _ _ => cases Registry.body_eq hFound hBody found body
          | undeclared unknown _ => exact absurd unknown declares.get?

/-- Values of one declared type. -/
theorem homogeneous_of_hasType {item : TypeExpr} {nodes : List Node} {values : List Value}
    (declares : registry.Declares item)
    (typed : List.Forall₂ (Node.HasType registry options item) nodes values) :
    Homogeneous values := by
  obtain ⟨c, hClass⟩ := exists_ofClass declares
  refine ⟨c, fun value mem => ?_⟩
  obtain ⟨node, -, hTyped⟩ := Production.exists_of_forall₂ typed value mem
  exact (hClass node value hTyped).1

/-- Values of one class. -/
theorem together_of_homogeneous {values : List Value} (homogeneous : Homogeneous values) :
    Together values := by
  obtain ⟨c, hClass⟩ := homogeneous
  cases c with
  | enum _ =>
      right
      rintro value mem ⟨fields, rfl⟩
      cases hClass _ mem
  | number =>
      left
      rintro value mem ⟨enum, name, rfl⟩
      cases hClass _ mem
  | other kind =>
      left
      rintro value mem ⟨enum, name, rfl⟩
      cases hClass _ mem with
      | other plain => exact plain (by simp [Value.kind])

end Value

/-! ### Parts -/

section

variable (registry options)

/-- A written value fits some position whose type refers to declared names only. -/
def Node.FitsSome (node : Node) (value : Value) : Prop :=
  ∃ type?, (∀ type ∈ type?, registry.Declares type) ∧ Node.Fits registry options type? node value

/-- What a form becomes in such a position: the same form again, with parts that fit some position,
unless it has no parts. -/
inductive Form.Becomes : Form → Value → Prop where
  | scalar {form : Form} {value : Value} (parts : value.parts = [])
      (spelled : form.Spelled → value.Spelled) : Becomes form value
  | array {items : List Node} {values : List Value} (together : Value.Together values)
      (each : List.Forall₂ (Node.FitsSome registry options) items values) :
      Becomes (.array items) (.array values)
  | object {typeName : Option String} {entries : List Entry} {fields : List (String × Value)}
      {opened : Span} (keys : entries.map Entry.key = fields.map Prod.fst)
      (each : List.Forall₂ (Node.FitsSome registry options) (entries.map Entry.value)
        (fields.map Prod.snd)) : Becomes (.object typeName entries opened) (.object typeName fields)
  | unit {enum name : String} : Becomes (.variant enum name .unit) (.variant enum name .unit)
  | tuple {enum name : String} {items : List Node} {values : List Value}
      (each : List.Forall₂ (Node.FitsSome registry options) items values) :
      Becomes (.variant enum name (.tuple items)) (.variant enum name (.tuple values))
  | fields {enum name : String} {entries : List Entry} {fields : List (String × Value)}
      (keys : entries.map Entry.key = fields.map Prod.fst)
      (each : List.Forall₂ (Node.FitsSome registry options) (entries.map Entry.value)
        (fields.map Prod.snd)) :
      Becomes (.variant enum name (.fields entries)) (.variant enum name (.fields fields))

end

theorem Node.HasType.fitsSome {type : TypeExpr} {node : Node} {value : Value}
    (typed : Node.HasType registry options type node value) (declares : registry.Declares type) :
    Node.FitsSome registry options node value := by
  refine ⟨some type, ?_, typed⟩
  rintro _ ⟨⟩
  exact declares

theorem Node.Acceptable.fitsSome {node : Node} {value : Value}
    (acceptable : Node.Acceptable registry options node value) :
    Node.FitsSome registry options node value :=
  ⟨none, nofun, acceptable⟩

/-- Entries and values of a block, paired by what they are. -/
theorem Entry.forall₂_of_zip {entries : List Entry} {fields : List (String × Value)}
    {P : Node → Value → Prop} (keys : entries.map Entry.key = fields.map Prod.fst)
    (each : ∀ entry field, (entry, field) ∈ entries.zip fields → P entry.value field.2) :
    List.Forall₂ P (entries.map Entry.value) (fields.map Prod.snd) := by
  rw [List.forall₂_map_left_iff, List.forall₂_map_right_iff, List.forall₂_iff_zip]
  refine ⟨?_, fun mem => each _ _ mem⟩
  simpa using congrArg List.length keys

theorem Entry.Fill.each_fitsSome {fields : List Field} {entries : List Entry}
    {values : List (String × Value)} (fill : Entry.Fill registry options fields entries values)
    (declares : ∀ field ∈ fields, registry.Declares field.type) :
    entries.map Entry.key = values.map Prod.fst ∧
      List.Forall₂ (Node.FitsSome registry options) (entries.map Entry.value)
        (values.map Prod.snd) := by
  obtain ⟨-, declared, keys, each⟩ := fill
  refine ⟨keys, Entry.forall₂_of_zip keys fun entry value mem => ?_⟩
  obtain ⟨field, hField⟩ := declared entry (List.of_mem_zip mem).1
  have hDeclares := declares field (List.mem_of_find?_eq_some hField)
  have hTakes := each _ _ field mem hField
  generalize entry.value = node, value.2 = v at hTakes
  cases hTakes with
  | typed typed => exact typed.fitsSome hDeclares
  | null _ => exact Node.Acceptable.null.fitsSome

/-- What is told of all pairs of two lists is told of each member of the second one. -/
theorem exists_of_mem_right {α β : Type} {P : α → β → Prop} {as : List α} {bs : List β}
    (lengths : as.length = bs.length) (each : ∀ a b, (a, b) ∈ as.zip bs → P a b) :
    ∀ b ∈ bs, ∃ a, P a b := by
  intro b mem
  have hAll : List.Forall₂ P as bs := List.forall₂_iff_zip.2 ⟨lengths, fun pair => each _ _ pair⟩
  obtain ⟨a, -, hPair⟩ := Production.exists_of_forall₂ hAll b mem
  exact ⟨a, hPair⟩

/-- The slot that an item of a tuple stands in. -/
theorem Slot.exists_of_zip {slots : List Slot} {items : List Node} {values : List Value}
    {node : Node} {value : Value} (arity : slots.length = items.length)
    (mem : (node, value) ∈ items.zip values) :
    ∃ slot ∈ slots, ((slot, node), value) ∈ (slots.zip items).zip values := by
  induction slots generalizing items values with
  | nil =>
      cases items with
      | nil => cases mem
      | cons _ _ => cases arity
  | cons slot slots ih =>
      cases items with
      | nil => cases mem
      | cons item items =>
          cases values with
          | nil => cases mem
          | cons v values =>
              rcases List.mem_cons.1 mem with h | mem
              · cases h
                exact ⟨slot, List.mem_cons_self, List.mem_cons_self⟩
              · obtain ⟨other, hOther, hMem⟩ := ih (Nat.succ.inj arity) mem
                exact ⟨other, List.mem_cons_of_mem _ hOther, List.mem_cons_of_mem _ hMem⟩

theorem Payload.HasShape.becomes {shape : Payload Slot Field} {payload : Payload Node Entry}
    {value : Payload Value (String × Value)} {enum name : String}
    (carried : Payload.HasShape registry options shape payload value)
    (declares : ∀ type ∈ shape.types, registry.Declares type) :
    Form.Becomes registry options (.variant enum name payload) (.variant enum name value) := by
  cases carried with
  | unit => exact .unit
  | tuple arity lengths each =>
      refine .tuple (List.forall₂_iff_zip.2 ⟨lengths, fun {node value} mem => ?_⟩)
      obtain ⟨slot, hSlot, hMem⟩ := Slot.exists_of_zip arity mem
      exact (each slot node value hMem).fitsSome (declares _ (List.mem_map_of_mem hSlot))
  | fields block =>
      obtain ⟨hKeys, hEach⟩ := block.each_fitsSome fun field mem =>
        declares _ (List.mem_map_of_mem mem)
      exact .fields hKeys hEach

theorem Value.parts_eq_nil_of_denotes {kind : Extended} {raw : String} {value : Value}
    (denotes : options.denote kind raw = .ok value) : value.parts = [] ∧ value.Spelled := by
  rcases Options.denote_eq_ok denotes with ⟨_, _, rfl, _⟩ | ⟨_, _, rfl, _⟩ | ⟨_, _, rfl, _⟩ <;>
    exact ⟨rfl, trivial⟩

theorem Node.Acceptable.becomes (resolved : registry.Resolved) {form : Form} {span : Span}
    {value : Value} (acceptable : Node.Acceptable registry options ⟨form, span⟩ value) :
    Form.Becomes registry options form value := by
  cases acceptable with
  | string | integer | boolean | null => exact .scalar rfl fun _ => trivial
  | float => exact .scalar rfl id
  | extended denotes =>
      obtain ⟨hParts, hSpelled⟩ := Value.parts_eq_nil_of_denotes denotes
      exact .scalar hParts fun _ => hSpelled
  | array lengths each homogeneous =>
      refine .array (Value.together_of_homogeneous homogeneous) (List.forall₂_iff_zip.2 ⟨lengths, ?_⟩)
      exact fun mem => (each _ _ mem).fitsSome
  | object keys each =>
      exact .object keys (Entry.forall₂_of_zip keys fun _ _ mem => (each _ _ mem).fitsSome)
  | record found body block =>
      obtain ⟨hKeys, hEach⟩ := block.each_fitsSome (resolved.record found body)
      exact .object hKeys hEach
  | choice found body alternative carried =>
      exact carried.becomes (resolved.choice found body alternative)

theorem Node.HasType.becomes (resolved : registry.Resolved) {type : TypeExpr}
    (declares : registry.Declares type) {form : Form} {span : Span} {value : Value}
    (typed : Node.HasType registry options type ⟨form, span⟩ value) :
    Form.Becomes registry options form value := by
  cases typed with
  | string | integer | boolean => exact .scalar rfl fun _ => trivial
  | float => exact .scalar rfl id
  | widened => exact .scalar rfl fun _ => Number.Binary64.isFinite_ofInteger _
  | quoted denotes | extended denotes =>
      obtain ⟨hParts, hSpelled⟩ := Value.parts_eq_nil_of_denotes denotes
      exact .scalar hParts fun _ => hSpelled
  | array lengths each =>
      have hEach := List.forall₂_iff_zip.2 ⟨lengths, fun mem => each _ _ mem⟩
      have hHomogeneous := Value.homogeneous_of_hasType declares.item hEach
      exact .array (Value.together_of_homogeneous hHomogeneous)
        (hEach.imp fun _ _ typed => typed.fitsSome declares.item)
  | record found body _ block =>
      obtain ⟨hKeys, hEach⟩ := block.each_fitsSome (resolved.record found body)
      exact .object hKeys hEach
  | choice found body alternative carried =>
      exact carried.becomes (resolved.choice found body alternative)
  | undeclared unknown _ => exact absurd unknown declares.get?

theorem Node.FitsSome.becomes (resolved : registry.Resolved) {form : Form} {span : Span}
    {value : Value} (fits : Node.FitsSome registry options ⟨form, span⟩ value) :
    Form.Becomes registry options form value := by
  obtain ⟨type?, declares, fits⟩ := fits
  cases type? with
  | none => exact Node.Acceptable.becomes resolved fits
  | some type => exact Node.HasType.becomes resolved (declares type rfl) fits

theorem Value.keyed_of_keys {entries : List Entry} {fields : List (String × Value)}
    (keyed : Entry.Keyed entries) (keys : entries.map Entry.key = fields.map Prod.fst) :
    Keyed fields := by
  obtain ⟨hNodup, hWords⟩ := keyed
  rw [keys] at hNodup
  refine ⟨hNodup, fun field mem => ?_⟩
  have hKey : field.1 ∈ entries.map Entry.key := by
    rw [keys]
    exact List.mem_map_of_mem mem
  obtain ⟨entry, hEntry, hSame⟩ := List.mem_map.1 hKey
  rw [← hSame]
  exact hWords entry hEntry

/-- A value that a written value becomes can be printed, and read with as much room. -/
theorem Node.FitsSome.printable (resolved : registry.Resolved) {room : Nat} {node : Node}
    {value : Value} (fits : Node.FitsSome registry options node value)
    (readable : node.Readable room) : value.Printable room := by
  induction room generalizing node value with
  | zero => exact readable.elim
  | succ room ih =>
      obtain ⟨form, span⟩ := node
      obtain ⟨hSpelled, hParts⟩ := readable
      have hEach : ∀ {nodes values},
          List.Forall₂ (Node.FitsSome registry options) nodes values →
          (∀ node ∈ nodes, node.Readable room) → ∀ value ∈ values, value.Printable room := by
        intro nodes values each readable
        induction each with
        | nil => simp
        | cons fits _ ihRest =>
            obtain ⟨hFirst, hRest⟩ := List.forall_mem_cons.1 readable
            exact List.forall_mem_cons.2 ⟨ih fits hFirst, ihRest hRest⟩
      cases fits.becomes resolved with
      | scalar parts spelled =>
          refine ⟨spelled hSpelled, fun part mem => ?_⟩
          rw [parts] at mem
          cases mem
      | array together each => exact ⟨fun _ => together, hEach each hParts⟩
      | object keys each =>
          exact ⟨⟨hSpelled.1, Value.keyed_of_keys hSpelled.2 keys⟩, hEach each hParts⟩
      | unit => exact ⟨hSpelled, nofun⟩
      | tuple each =>
          obtain ⟨hLabel, hName, hNonempty⟩ := hSpelled
          refine ⟨⟨hLabel, hName, ?_⟩, hEach each hParts⟩
          rintro rfl
          cases each
          exact hNonempty rfl
      | fields keys each =>
          obtain ⟨hLabel, hName, hKeyed⟩ := hSpelled
          exact ⟨⟨hLabel, hName, Value.keyed_of_keys hKeyed keys⟩, hEach each hParts⟩

/-- A checked document of files can be printed. -/
theorem Configuration.printable_of_check {bundle : Bundle} {c : Configuration}
    (checks : bundle.check registry options = .ok c) (resolved : bundle.IsResolved) :
    c.toValue.Printable (maxNesting + 1) := by
  obtain ⟨hResolved, hAcceptable⟩ := Bundle.check_eq_ok_iff.1 checks
  exact hAcceptable.fitsSome.printable hResolved resolved.root_readable

end TypedConfig
