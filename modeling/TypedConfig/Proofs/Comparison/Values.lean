import TypedConfig.Proofs.Comparison.Verdicts
/-!
Values that are the same up to the order of their fields. If the order is fixed they are equal. If
it is not, they are still the same documents, provided that fields can be told apart by their keys
and every number equals itself.
-/
namespace TypedConfig

namespace Value

/-! ### Induction over values -/

theorem sizeOf_field_lt {fields : List (String × Value)} {part : Value}
    (mem : part ∈ fields.map Prod.snd) : sizeOf part < sizeOf fields := by
  obtain ⟨⟨key, value⟩, hField, rfl⟩ := List.mem_map.1 mem
  have hSize := List.sizeOf_lt_of_mem hField
  simp only [Prod.mk.sizeOf_spec] at hSize ⊢
  omega

theorem sizeOf_part_lt {value part : Value} (mem : part ∈ value.parts) :
    sizeOf part < sizeOf value := by
  cases value with
  | array items =>
      have hSize : sizeOf part < sizeOf items := List.sizeOf_lt_of_mem mem
      simp only [array.sizeOf_spec]
      omega
  | object typeName fields =>
      have hSize : sizeOf part < sizeOf fields := sizeOf_field_lt mem
      simp only [object.sizeOf_spec]
      omega
  | variant enum name payload =>
      have hSize : sizeOf part < sizeOf payload := by
        cases payload with
        | unit => cases mem
        | tuple items =>
            have hItems : sizeOf part < sizeOf items := List.sizeOf_lt_of_mem mem
            simp only [Payload.tuple.sizeOf_spec]
            omega
        | fields fields =>
            have hFields : sizeOf part < sizeOf fields := sizeOf_field_lt mem
            simp only [Payload.fields.sizeOf_spec]
            omega
      simp only [variant.sizeOf_spec]
      omega
  | _ => cases mem

/-- What passes from the parts of a value to the value itself holds for all of them. -/
theorem induct {motive : Value → Prop}
    (step : ∀ value, (∀ part ∈ value.parts, motive part) → motive value) (value : Value) :
    motive value := by
  refine step value fun part mem => Value.induct step part
termination_by sizeOf value
decreasing_by exact sizeOf_part_lt mem

/-! ### Values with their fields in place -/

theorem Varies.items_eq {free : Prop} {items items' : List Value}
    (ih : ∀ part ∈ items, ∀ value', Varies free part value' → part = value')
    (each : List.Forall₂ (Varies free) items items') : items = items' := by
  induction each with
  | nil => rfl
  | cons first _ hRest =>
      obtain ⟨hFirst, hOthers⟩ := List.forall_mem_cons.1 ih
      rw [hFirst _ first, hRest hOthers]

theorem Varies.fields_eq {fields middle fields' : List (String × Value)}
    (ih : ∀ part ∈ fields.map Prod.snd, ∀ value', Varies False part value' → part = value')
    (each : List.Forall₂ (FieldVaries False) fields middle)
    (order : Shuffled False middle fields') : fields = fields' := by
  rcases order with rfl | ⟨hFree, -⟩
  · induction each with
    | nil => rfl
    | cons first _ hRest =>
        obtain ⟨hFirst, hOthers⟩ := List.forall_mem_cons.1 ih
        cases first with
        | intro inner =>
            obtain rfl := hFirst _ inner
            rw [hRest hOthers]
  · exact hFree.elim

/-- Values are equal if the order of fields is fixed. -/
theorem Varies.eq {value value' : Value} (varies : Varies False value value') : value = value' := by
  induction value using induct generalizing value' with
  | step value ih =>
      have hParts : ∀ part ∈ value.parts, ∀ value', Varies False part value' → part = value' :=
        fun part mem value' varies => ih part mem varies
      cases varies with
      | leaf => rfl
      | array each => exact congrArg Value.array (items_eq hParts each)
      | object each order => exact congrArg (Value.object _) (fields_eq hParts each order)
      | tuple each => exact congrArg (variant _ _ <| .tuple ·) (items_eq hParts each)
      | fields each order => exact congrArg (variant _ _ <| .fields ·) (fields_eq hParts each order)

/-! ### Values with their fields in any order -/

/-- The keys of a value. -/
def keys : Value → List String
  | object _ fields => fields.map Prod.fst
  | variant _ _ (.fields fields) => fields.map Prod.fst
  | _ => []

/-- A float is a number; of other values nothing is asked. -/
def NotNaN : Value → Prop
  | float x => x.isNaN = false
  | _ => True

/-- Fields can be told apart by their keys, and every float is a number, at any depth. -/
def Regular (value : Value) : Prop :=
  ∀ inner, value.Holds inner → inner.keys.Nodup ∧ inner.NotNaN

theorem Regular.part {value part : Value} (regular : value.Regular) (mem : part ∈ value.parts) :
    part.Regular :=
  fun inner holds => regular inner (.part mem holds)

theorem Regular.of_parts {value : Value} (keys : value.keys.Nodup)
    (number : value.NotNaN) (parts : ∀ part ∈ value.parts, part.Regular) :
    value.Regular := by
  intro inner holds
  cases holds with
  | self => exact ⟨keys, number⟩
  | part mem holds => exact parts _ mem inner holds

theorem Regular.keys_nodup {value : Value} (regular : value.Regular) : value.keys.Nodup :=
  (regular value .self).1

/-- A value without parts is the same as itself. -/
theorem same_self {value : Value} (whole : value.parts = [])
    (number : value.NotNaN) : value.same value = true := by
  cases value with
  | float x =>
      have hNumber : x.isNaN = false := number
      simp [same, Number.Binary64.same, hNumber]
  | array items =>
      obtain rfl : items = [] := whole
      rfl
  | object typeName fields =>
      obtain rfl := List.map_eq_nil_iff.1 whole
      simp [same, fieldsIn]
  | variant enum name payload =>
      cases payload with
      | unit => simp [same, samePayload]
      | tuple items =>
          obtain rfl : items = [] := whole
          simp [same, samePayload, sameItems]
      | fields fields =>
          obtain rfl := List.map_eq_nil_iff.1 whole
          simp [same, samePayload, fieldsIn]
  | _ => simp [same]

theorem fieldsIn_iff {fields others : List (String × Value)} :
    fieldsIn fields others = true ↔
      ∀ key value, (key, value) ∈ fields → ∃ other, others.lookup key = some other ∧
        value.same other = true := by
  induction fields with
  | nil => simp [fieldsIn]
  | cons field fields ih =>
      obtain ⟨key, value⟩ := field
      rw [fieldsIn, Bool.and_eq_true, ih, Option.any_eq_true]
      constructor
      · rintro ⟨hFirst, hOthers⟩ k v mem
        rcases List.mem_cons.1 mem with h | h
        · cases h
          exact hFirst
        · exact hOthers k v h
      · intro each
        exact ⟨each key value List.mem_cons_self,
          fun k v mem => each k v (List.mem_cons_of_mem _ mem)⟩

theorem lookup_of_nodup {fields : List (String × Value)} {key : String} {value : Value}
    (nodup : (fields.map Prod.fst).Nodup) (mem : (key, value) ∈ fields) :
    fields.lookup key = some value := by
  obtain ⟨before, after, rfl⟩ := List.append_of_mem mem
  refine List.lookup_eq_some_iff.2 ⟨before, after, rfl, fun field hField => ?_⟩
  rw [List.map_append, List.map_cons] at nodup
  have hApart := List.nodup_append.1 nodup
  simpa using (hApart.2.2 field.1 (List.mem_map_of_mem hField) key List.mem_cons_self).symm

theorem Varies.sameItems {free : Prop} {items items' : List Value}
    (ih : ∀ part ∈ items, ∀ value', Varies free part value' → part.same value' = true)
    (each : List.Forall₂ (Varies free) items items') : Value.sameItems items items' = true := by
  induction each with
  | nil => rfl
  | cons first _ hRest =>
      obtain ⟨hFirst, hOthers⟩ := List.forall_mem_cons.1 ih
      rw [Value.sameItems, hFirst _ first, hRest hOthers]
      rfl

theorem FieldVaries.exists_of_mem {free : Prop} {fields others : List (String × Value)}
    (each : List.Forall₂ (FieldVaries free) fields others) {key : String} {value : Value}
    (mem : (key, value) ∈ fields) : ∃ other, (key, other) ∈ others ∧ Varies free value other := by
  induction each with
  | nil => cases mem
  | cons first _ ih =>
      rcases List.mem_cons.1 mem with rfl | hRest
      · cases first with
        | intro inner => exact ⟨_, List.mem_cons_self, inner⟩
      · obtain ⟨other, hOther, hVaries⟩ := ih hRest
        exact ⟨other, List.mem_cons_of_mem _ hOther, hVaries⟩

theorem Varies.fieldsIn {free : Prop} {fields middle fields' : List (String × Value)}
    (ih : ∀ part ∈ fields.map Prod.snd, ∀ value', Varies free part value' → part.same value' = true)
    (nodup : (fields.map Prod.fst).Nodup)
    (each : List.Forall₂ (FieldVaries free) fields middle) (order : Shuffled free middle fields') :
    (fields.length == fields'.length && Value.fieldsIn fields fields') = true := by
  have hPerm := order.perm
  have hKeys : fields.map Prod.fst = middle.map Prod.fst := by
    rw [map_eq_map_iff_forall₂]
    refine each.imp fun field field' varies => ?_
    cases varies
    rfl
  have hNodup : (fields'.map Prod.fst).Nodup := (hPerm.map Prod.fst).nodup_iff.1 (hKeys ▸ nodup)
  rw [Bool.and_eq_true, beq_iff_eq, fieldsIn_iff]
  refine ⟨each.length_eq.trans hPerm.length_eq, fun key value mem => ?_⟩
  -- The field that stands for this one, wherever it has been put.
  obtain ⟨other, hOther, hVaries⟩ := FieldVaries.exists_of_mem each mem
  exact ⟨other, lookup_of_nodup hNodup (hPerm.subset hOther),
    ih value (List.mem_map_of_mem mem) other hVaries⟩

/-- Values that differ in the order of fields are the same. -/
theorem Varies.same {free : Prop} {value value' : Value} (varies : Varies free value value')
    (regular : value.Regular) : value.same value' = true := by
  induction value using induct generalizing value' with
  | step value ih =>
      have hParts : ∀ part ∈ value.parts, ∀ value', Varies free part value' →
          part.same value' = true :=
        fun part mem value' varies => ih part mem varies (regular.part mem)
      have hKeys := regular.keys_nodup
      cases varies with
      | leaf whole => exact same_self whole (regular value .self).2
      | array each => exact sameItems hParts each
      | object each order =>
          simpa [Value.same] using fieldsIn hParts hKeys each order
      | @tuple _ _ items items' each =>
          have hItems : Value.sameItems items items' = true := sameItems hParts each
          simpa [Value.same, samePayload] using hItems
      | fields each order =>
          simpa [Value.same, samePayload] using fieldsIn hParts hKeys each order

end Value

/-- Checked documents that differ in the order of fields are the same. -/
theorem Configuration.Varies.same {free : Prop} {c d : Configuration} (varies : c.Varies free d)
    (regular : c.toValue.Regular) : c.same d = true := by
  obtain ⟨middle, hEach, hOrder⟩ := varies
  exact Value.Varies.same (.object hEach hOrder) regular

/-- Checked documents are equal if the order of fields is fixed. -/
theorem Configuration.Varies.eq {c d : Configuration} (varies : c.Varies False d) : c = d := by
  obtain ⟨middle, hEach, hOrder⟩ := varies
  obtain ⟨fields⟩ := c
  obtain ⟨fields'⟩ := d
  have hObject : Value.Varies False (.object none fields) (.object none fields') :=
    .object hEach hOrder
  cases hObject.eq
  rfl

end TypedConfig
