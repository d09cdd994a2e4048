import TypedConfig.Proofs.Printing.Printability
import TypedConfig.Proofs.Typing.Exactness
import TypedConfig.Proofs.Typing.Reports
/-!
The values of a checked document in their positions. The names that values carry tell which type is
declared for each part, so every value of the document stands in some position, and it fits there.
Hence the items of an array are of one class, whether the array has a declared type or not.
-/
namespace TypedConfig

section

variable (registry : Registry)

/-- A value in a position puts a part of it in a position of its own. -/
inductive Value.Puts : Option TypeExpr → Value → Option TypeExpr → Value → Prop where
  | item {type : TypeExpr} {items : List Value} {part : Value} (mem : part ∈ items) :
      Puts (some (.array type)) (.array items) (some type) part
  | anyItem {type? : Option TypeExpr} {items : List Value} {part : Value}
      (undeclared : registry.Undeclared type?) (mem : part ∈ items) :
      Puts type? (.array items) none part
  | anyField {type? : Option TypeExpr} {fields : List (String × Value)} {key : String} {part : Value}
      (undeclared : registry.Undeclared type?) (mem : (key, part) ∈ fields) :
      Puts type? (.object none fields) none part
  | field {type? : Option TypeExpr} {typeName : Option String} {declared : OwnedFields}
      {fields : List (String × Value)} {key : String} {part : Value} {field : Field}
      (takes : registry.TakesObject type? typeName declared) (mem : (key, part) ∈ fields)
      (found : declared.fields.find? (·.name = key) = some field) :
      Puts type? (.object typeName fields) (some field.type) part
  | slot {type? : Option TypeExpr} {enum name : String} {slots : List Slot} {values : List Value}
      {slot : Slot} {part : Value} (takes : registry.TakesVariant type? enum name (.tuple slots))
      (mem : (slot, part) ∈ slots.zip values) :
      Puts type? (.variant enum name (.tuple values)) (some slot.type) part
  | payloadField {type? : Option TypeExpr} {enum name : String} {declared : List Field}
      {fields : List (String × Value)} {key : String} {part : Value} {field : Field}
      (takes : registry.TakesVariant type? enum name (.fields declared))
      (mem : (key, part) ∈ fields) (found : declared.find? (·.name = key) = some field) :
      Puts type? (.variant enum name (.fields fields)) (some field.type) part

/-- A value of a checked document stands in a position. -/
inductive Configuration.Has (c : Configuration) : Option TypeExpr → Value → Prop where
  | root {key : String} {value : Value} (mem : (key, value) ∈ c.fields) : Has c none value
  | part {type? own? : Option TypeExpr} {value part : Value} (prior : Has c type? value)
      (last : Value.Puts registry type? value own? part) : Has c own? part

end

variable {registry : Registry} {options : Options}

/-! ### Fitting a position -/

section

variable (registry options)

/-- Some written value becomes the value in a position whose type refers to declared names only. The
null of an optional field needs none. -/
def Value.Stands (type? : Option TypeExpr) (value : Value) : Prop :=
  (∀ type ∈ type?, registry.Declares type) ∧
    (value = .null ∨ ∃ node, Node.Fits registry options type? node value)

end

theorem Registry.Undeclared.eq_none {type? : Option TypeExpr}
    (undeclared : registry.Undeclared type?) (declares : ∀ type ∈ type?, registry.Declares type) :
    type? = none := by
  cases type? with
  | none => rfl
  | some type =>
      obtain ⟨name, rfl, hUnknown⟩ := undeclared type rfl
      exact absurd hUnknown (declares _ rfl).get?

/-- One declaration decides how an object is checked. -/
theorem Registry.TakesObject.unique {type? : Option TypeExpr} {typeName : Option String}
    {declared other : OwnedFields} (takes : registry.TakesObject type? typeName declared)
    (takes' : registry.TakesObject type? typeName other) : declared = other := by
  cases takes with
  | annotated found body _ =>
      cases takes' with
      | annotated found' body' _ =>
          cases Registry.body_eq found body found' body'
          rfl
  | plain found body =>
      cases takes' with
      | plain found' body' =>
          cases Registry.body_eq found body found' body'
          rfl

theorem Registry.Undeclared.not_takesObject {type? : Option TypeExpr} {declared : OwnedFields}
    (undeclared : registry.Undeclared type?) : ¬registry.TakesObject type? none declared := by
  intro takes
  cases takes with
  | plain found body =>
      obtain ⟨name, hName, hUnknown⟩ := undeclared _ rfl
      cases hName
      rw [found] at hUnknown
      cases hUnknown

/-- One declaration decides how an alternative is checked. -/
theorem Registry.TakesVariant.unique {type? : Option TypeExpr} {enum name : String}
    {shape other : Payload Slot Field} (takes : registry.TakesVariant type? enum name shape)
    (takes' : registry.TakesVariant type? enum name other) : shape = other := by
  obtain ⟨found, body, alternative, -⟩ := takes
  obtain ⟨found', body', alternative', -⟩ := takes'
  cases Registry.body_eq found body found' body'
  rw [alternative] at alternative'
  cases alternative'
  rfl

theorem Options.denote_ne_ok {kind : Extended} {raw : String} {value : Value}
    (compound : value.kind ∈ [Value.Kind.array, .object, .enum]) :
    options.denote kind raw ≠ .ok value := by
  intro denotes
  rcases denote_eq_ok denotes with ⟨_, -, rfl, -⟩ | ⟨_, -, rfl, -⟩ | ⟨_, -, rfl, -⟩ <;>
    simp [Value.kind] at compound

namespace Node.Fits

variable {type? : Option TypeExpr} {node : Node}

/-- How an array can fit a position. -/
theorem array_cases {items : List Value} (declares : ∀ type ∈ type?, registry.Declares type)
    (fits : Node.Fits registry options type? node (.array items)) :
    (type? = none ∧ Value.Homogeneous items ∧
      ∀ part ∈ items, ∃ node, Node.Fits registry options none node part) ∨
    ∃ type, type? = some (.array type) ∧
      ∀ part ∈ items, ∃ node, Node.Fits registry options (some type) node part := by
  cases type? with
  | none =>
      cases fits with
      | array lengths each homogeneous =>
          exact .inl ⟨rfl, homogeneous, exists_of_mem_right lengths each⟩
      | extended denotes => exact absurd denotes (Options.denote_ne_ok List.mem_cons_self)
  | some type =>
      cases fits with
      | array lengths each => exact .inr ⟨_, rfl, exists_of_mem_right lengths each⟩
      | quoted denotes | extended denotes =>
          exact absurd denotes (Options.denote_ne_ok List.mem_cons_self)
      | undeclared unknown _ => exact absurd unknown (declares _ rfl).get?

/-- How an object can fit a position. -/
theorem object_cases {typeName : Option String} {fields : List (String × Value)}
    (declares : ∀ type ∈ type?, registry.Declares type)
    (fits : Node.Fits registry options type? node (.object typeName fields)) :
    (type? = none ∧ typeName = none ∧
      ∀ key part, (key, part) ∈ fields → ∃ node, Node.Fits registry options none node part) ∨
    ∃ declared entries, registry.TakesObject type? typeName declared ∧
      Entry.Fill registry options declared.fields entries fields := by
  have hCompound : (Value.object typeName fields).kind ∈ [Value.Kind.array, .object, .enum] := by
    simp [Value.kind]
  cases type? with
  | none =>
      cases fits with
      | @object entries _ _ _ keys each =>
          refine .inl ⟨rfl, rfl, fun key part mem => ?_⟩
          obtain ⟨entry, hFits⟩ := exists_of_mem_right (Entry.keys_eq_iff.1 keys).1 each _ mem
          exact ⟨entry.value, hFits⟩
      | record found body block =>
          exact .inr ⟨_, _, .annotated found body (.inl registry.undeclared_none), block⟩
      | extended denotes => exact absurd denotes (Options.denote_ne_ok hCompound)
  | some type =>
      cases fits with
      | record found body label block =>
          cases typeName with
          | none => exact .inr ⟨_, _, .plain found body, block⟩
          | some other =>
              obtain rfl := label other rfl
              exact .inr ⟨_, _, .annotated found body (.inr rfl), block⟩
      | quoted denotes | extended denotes => exact absurd denotes (Options.denote_ne_ok hCompound)
      | undeclared unknown _ => exact absurd unknown (declares _ rfl).get?

/-- How an alternative can fit a position. -/
theorem variant_cases {enum name : String} {payload : Payload Value (String × Value)}
    (declares : ∀ type ∈ type?, registry.Declares type)
    (fits : Node.Fits registry options type? node (.variant enum name payload)) :
    ∃ shape written, registry.TakesVariant type? enum name shape ∧
      Payload.HasShape registry options shape written payload := by
  have hCompound : (Value.variant enum name payload).kind ∈ [Value.Kind.array, .object, .enum] := by
    simp [Value.kind]
  cases type? with
  | none =>
      cases fits with
      | choice found body alternative carried =>
          exact ⟨_, _, .intro found body alternative (.inl registry.undeclared_none), carried⟩
      | extended denotes => exact absurd denotes (Options.denote_ne_ok hCompound)
  | some type =>
      cases fits with
      | choice found body alternative carried =>
          exact ⟨_, _, .intro found body alternative (.inr rfl), carried⟩
      | quoted denotes | extended denotes => exact absurd denotes (Options.denote_ne_ok hCompound)
      | undeclared unknown _ => exact absurd unknown (declares _ rfl).get?

end Node.Fits

/-! ### Parts in their positions -/

/-- The value of a field that is filled stands where the field is declared. -/
theorem Entry.Fill.stands {declared : List Field} {entries : List Entry}
    {fields : List (String × Value)} (fill : Entry.Fill registry options declared entries fields)
    (declares : ∀ field ∈ declared, registry.Declares field.type) {key : String} {part : Value}
    (mem : (key, part) ∈ fields) : ∃ field, declared.find? (·.name = key) = some field ∧
      Value.Stands registry options (some field.type) part := by
  obtain ⟨-, known, keys, each⟩ := fill
  obtain ⟨hLengths, hKeys⟩ := Entry.keys_eq_iff.1 keys
  obtain ⟨entry, hPair⟩ := exists_of_mem_right hLengths (fun _ _ mem => mem) _ mem
  obtain ⟨field, hField⟩ := known entry (List.of_mem_zip hPair).1
  have hKey : entry.key = key := hKeys entry (key, part) hPair
  refine ⟨field, hKey ▸ hField, ?_, ?_⟩
  · rintro _ ⟨⟩
    exact declares field (List.mem_of_find?_eq_some hField)
  · have hTakes := each entry (key, part) field hPair hField
    generalize entry.value = node at hTakes
    cases hTakes with
    | typed typed => exact .inr ⟨node, typed⟩
    | null _ => exact .inl rfl

theorem Registry.TakesObject.declares {type? : Option TypeExpr} {typeName : Option String}
    {declared : OwnedFields} (takes : registry.TakesObject type? typeName declared)
    (resolved : registry.Resolved) : ∀ field ∈ declared.fields, registry.Declares field.type := by
  cases takes with
  | annotated found body _ => exact resolved.record found body
  | plain found body => exact resolved.record found body

theorem Registry.TakesVariant.declares {type? : Option TypeExpr} {enum name : String}
    {shape : Payload Slot Field} (takes : registry.TakesVariant type? enum name shape)
    (resolved : registry.Resolved) : ∀ type ∈ shape.types, registry.Declares type := by
  cases takes with
  | intro found body alternative _ => exact resolved.choice found body alternative

/-- The slot of a tuple that has the declared shape. -/
theorem Payload.HasShape.slot_stands {slots : List Slot} {written : Payload Node Entry}
    {values : List Value}
    (shaped : Payload.HasShape registry options (.tuple slots) written (.tuple values))
    (declares : ∀ slot ∈ slots, registry.Declares slot.type) {slot : Slot} {part : Value}
    (mem : (slot, part) ∈ slots.zip values) :
    Value.Stands registry options (some slot.type) part := by
  cases shaped with
  | @tuple _ items _ arity lengths each =>
      -- three lists run in parallel here, so the written item is found by its index
      have hPair : ∃ node, ((slot, node), part) ∈ (slots.zip items).zip values := by
        obtain ⟨i, hi, hAt⟩ := List.mem_iff_getElem.1 mem
        rw [List.length_zip] at hi
        have hItem : i < items.length := by omega
        have hValue : i < values.length := by omega
        have hMem : ((slots[i], items[i]), values[i]) ∈ (slots.zip items).zip values := by
          have hGet := List.getElem_mem (l := (slots.zip items).zip values) (n := i)
            (by simp; omega)
          simpa only [List.getElem_zip] using hGet
        rw [List.getElem_zip] at hAt
        cases hAt
        exact ⟨items[i], hMem⟩
      obtain ⟨node, hPair⟩ := hPair
      refine ⟨?_, .inr ⟨node, each slot node part hPair⟩⟩
      rintro _ ⟨⟩
      exact declares slot (List.of_mem_zip mem).1

namespace Value

variable {type? own? : Option TypeExpr} {value part : Value}

/-- A part of a value that stands in a position stands where the value puts it. -/
theorem Puts.stands (puts : Puts registry type? value own? part) (resolved : registry.Resolved)
    (stands : Stands registry options type? value) : Stands registry options own? part := by
  obtain ⟨declares, rfl | ⟨node, fits⟩⟩ := stands
  · cases puts
  cases puts with
  | item mem =>
      rcases fits.array_cases declares with ⟨hNone, -, -⟩ | ⟨type, hType, each⟩
      · cases hNone
      · cases hType
        refine ⟨?_, .inr (each part mem)⟩
        rintro _ ⟨⟩
        exact (declares _ rfl).item
  | anyItem undeclared mem =>
      obtain rfl := undeclared.eq_none declares
      rcases fits.array_cases declares with ⟨-, -, each⟩ | ⟨type, hType, -⟩
      · exact ⟨nofun, .inr (each part mem)⟩
      · cases hType
  | anyField undeclared mem =>
      rcases fits.object_cases declares with ⟨-, -, each⟩ | ⟨declared, entries, takes, -⟩
      · exact ⟨nofun, .inr (each _ part mem)⟩
      · exact absurd takes undeclared.not_takesObject
  | field takes mem found =>
      -- the declaration that puts the part is the one that the whole was checked against
      rcases fits.object_cases declares with ⟨rfl, rfl, -⟩ | ⟨declared, entries, takes', fill⟩
      · exact absurd takes registry.undeclared_none.not_takesObject
      · obtain rfl := takes.unique takes'
        obtain ⟨field, hField, hStands⟩ := fill.stands (takes.declares resolved) mem
        rw [found] at hField
        cases hField
        exact hStands
  | slot takes mem =>
      obtain ⟨shape, written, takes', shaped⟩ := fits.variant_cases declares
      obtain rfl := takes.unique takes'
      exact shaped.slot_stands
        (fun slot mem => takes.declares resolved _ (List.mem_map_of_mem mem)) mem
  | payloadField takes mem found =>
      obtain ⟨shape, written, takes', shaped⟩ := fits.variant_cases declares
      obtain rfl := takes.unique takes'
      cases shaped with
      | fields fill =>
          obtain ⟨field, hField, hStands⟩ := fill.stands
            (fun field mem => takes.declares resolved _ (List.mem_map_of_mem mem)) mem
          rw [found] at hField
          cases hField
          exact hStands

/-- Every part of a value that stands in a position is put somewhere. -/
theorem Stands.exists_puts (stands : Stands registry options type? value)
    (resolved : registry.Resolved) (mem : part ∈ value.parts) :
    ∃ own?, Puts registry type? value own? part := by
  obtain ⟨declares, rfl | ⟨node, fits⟩⟩ := stands
  · cases mem
  cases value with
  | array items =>
      rcases fits.array_cases declares with ⟨rfl, -, -⟩ | ⟨type, rfl, -⟩
      · exact ⟨none, .anyItem registry.undeclared_none mem⟩
      · exact ⟨some type, .item mem⟩
  | object typeName fields =>
      obtain ⟨⟨key, part⟩, hMem, rfl⟩ := List.mem_map.1 mem
      rcases fits.object_cases declares with ⟨rfl, rfl, -⟩ | ⟨declared, entries, takes, fill⟩
      · exact ⟨none, .anyField registry.undeclared_none hMem⟩
      · obtain ⟨field, hField, -⟩ := fill.stands (takes.declares resolved) hMem
        exact ⟨some field.type, .field takes hMem hField⟩
  | variant enum name payload =>
      obtain ⟨shape, written, takes, shaped⟩ := fits.variant_cases declares
      cases shaped with
      | unit => cases mem
      | tuple arity lengths each =>
          obtain ⟨slot, hPair⟩ :=
            exists_of_mem_right (arity.trans lengths) (fun _ _ mem => mem) part mem
          exact ⟨some slot.type, .slot takes hPair⟩
      | fields fill =>
          obtain ⟨⟨key, part⟩, hMem, rfl⟩ := List.mem_map.1 mem
          obtain ⟨field, hField, -⟩ := fill.stands
            (fun field mem => takes.declares resolved _ (List.mem_map_of_mem mem)) hMem
          exact ⟨some field.type, .payloadField takes hMem hField⟩
  | _ => cases mem

/-- The items of an array belong to one class. -/
theorem Stands.homogeneous {items : List Value}
    (stands : Stands registry options type? (.array items)) : Homogeneous items := by
  obtain ⟨declares, hNull | ⟨node, fits⟩⟩ := stands
  · cases hNull
  rcases fits.array_cases declares with ⟨-, hHomogeneous, -⟩ | ⟨type, rfl, each⟩
  · exact hHomogeneous
  · obtain ⟨c, hClass⟩ : ∃ c, ∀ node value, Node.HasType registry options type node value →
        OfClass c value ∧ value ≠ .null := exists_ofClass (declares _ rfl).item
    refine ⟨c, fun value mem => ?_⟩
    obtain ⟨node, typed⟩ := each value mem
    exact (hClass node value typed).1

/-- There is no null in an array of a declared type. -/
theorem Stands.null_not_mem {type : TypeExpr} {items : List Value}
    (stands : Stands registry options (some (.array type)) (.array items)) : .null ∉ items := by
  intro mem
  obtain ⟨declares, hNull | ⟨node, fits⟩⟩ := stands
  · cases hNull
  rcases fits.array_cases declares with ⟨hNone, -, -⟩ | ⟨type, hType, each⟩
  · cases hNone
  · cases hType
    obtain ⟨c, hClass⟩ : ∃ c, ∀ node value, Node.HasType registry options type node value →
        OfClass c value ∧ value ≠ .null := exists_ofClass (declares _ rfl).item
    obtain ⟨node, typed⟩ := each .null mem
    exact (hClass node .null typed).2 rfl

end Value

/-! ### Documents -/

namespace Configuration

variable {bundle : Bundle} {c : Configuration} {type? : Option TypeExpr} {value : Value}

/-- The root object of a checked document has no declared type. -/
theorem stands_of_check (checks : bundle.check registry options = .ok c) :
    registry.Resolved ∧ Value.Stands registry options none c.toValue := by
  obtain ⟨hResolved, hAcceptable⟩ := Bundle.check_eq_ok_iff.1 checks
  exact ⟨hResolved, nofun, .inr ⟨_, hAcceptable⟩⟩

/-- A value of a checked document fits its position. -/
theorem Has.stands (has : c.Has registry type? value)
    (checks : bundle.check registry options = .ok c) :
    Value.Stands registry options type? value := by
  obtain ⟨hResolved, hRoot⟩ := stands_of_check checks
  induction has with
  | root mem =>
      have hPuts : Value.Puts registry none c.toValue none _ :=
        .anyField registry.undeclared_none mem
      exact hPuts.stands hResolved hRoot
  | part prior last ih => exact last.stands hResolved ih

/-- Every value inside of a checked document stands in a position. -/
theorem exists_has (checks : bundle.check registry options = .ok c)
    (holds : c.toValue.Holds value) : value = c.toValue ∨ ∃ type?, c.Has registry type? value := by
  obtain ⟨hResolved, -⟩ := stands_of_check checks
  have hInside : ∀ {whole inner : Value}, whole.Holds inner → ∀ type?, c.Has registry type? whole →
      ∃ own?, c.Has registry own? inner := by
    intro whole inner hHolds
    induction hHolds with
    | self => exact fun type? has => ⟨type?, has⟩
    | part mem _ ih =>
        intro type? has
        obtain ⟨own?, hPuts⟩ := (has.stands checks).exists_puts hResolved mem
        exact ih own? (.part has hPuts)
  cases holds with
  | self => exact .inl rfl
  | part mem holds =>
      obtain ⟨⟨key, part⟩, hMem, rfl⟩ := List.mem_map.1 mem
      exact .inr (hInside holds none (.root hMem))

end Configuration

end TypedConfig
