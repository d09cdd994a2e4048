import TypedConfig.Proofs.Printing.Homogeneity
import TypedConfig.Value.Extraction
/-!
Extraction and checking agree. What was checked against a declared type can be taken out at the
target of that type, and the data that is taken out makes up the value again, leaf by leaf. On any
other value extraction fails exactly at the first place where a target meets a value of a kind that
it does not take.
-/
namespace TypedConfig

/-- The target for values of a declared type. There is none if the type refers to a declaration. -/
def TypeExpr.target? : TypeExpr → Option Target
  | string => some .string
  | integer => some .integer
  | float => some .float
  | boolean => some .boolean
  | extended kind => some (.extended kind)
  | named _ => none
  | array item => item.target?.map .list

namespace Target

/-- The value that is made up of the given data. -/
def toValue : (target : Target) → target.Result → Value
  | string, text => .string text
  | integer, n => .integer n
  | float, x => .float x
  | boolean, b => .boolean b
  | extended .url, u => .url u
  | extended .socket, a => .socket a
  | extended .pubkey, k => .pubkey k
  | list item, as => .array (List.map item.toValue as)
  | option _, none => .null
  | option target, some a => target.toValue a

/-- Whether a target takes values of a kind, whatever their parts are. -/
def takes : Target → Value.Kind → Bool
  | string, .string => true
  | integer, .integer => true
  | float, .float => true
  | float, .integer => true
  | boolean, .boolean => true
  | extended .url, .url => true
  | extended .socket, .socket => true
  | extended .pubkey, .pubkey => true
  | list _, .array => true
  | option _, .null => true
  | option target, kind => target.takes kind
  | _, _ => false

/-- The targets that meet a value, each with the value it meets, in the order of the document: first
the array, and then what is in it. Null is all that an optional target meets itself. -/
def visits : Target → Value → List (Target × Value)
  | list item, .array items => (list item, .array items) :: items.flatMap item.visits
  | option target, .null => [(option target, .null)]
  | option target, value => target.visits value
  | target, value => [(target, value)]

end Target

/-- A value in a position has a part under the key of a declared field: it is an object that is
checked against declared fields, or an alternative that carries such fields. -/
inductive Value.HasField (registry : Registry) (type? : Option TypeExpr) :
    Value → Field → Value → Prop where
  | object {typeName : Option String} {declared : OwnedFields} {fields : List (String × Value)}
      {key : String} {part : Value} {field : Field}
      (takes : registry.TakesObject type? typeName declared) (mem : (key, part) ∈ fields)
      (found : declared.fields.find? (·.name = key) = some field) :
      HasField registry type? (.object typeName fields) field part
  | payload {enum name : String} {declared : List Field} {fields : List (String × Value)}
      {key : String} {part : Value} {field : Field}
      (takes : registry.TakesVariant type? enum name (.fields declared))
      (mem : (key, part) ∈ fields) (found : declared.find? (·.name = key) = some field) :
      HasField registry type? (.variant enum name (.fields fields)) field part

namespace Target

/-! ### Where extraction stops -/

section

variable {α β : Type}

/-- What comes of extraction, by the first visit that does not fit. -/
inductive Ends : Option (Target × Value) → Except TypeFault α → Prop where
  | taken {a : α} : Ends none (.ok a)
  | stopped {visit : Target × Value} : Ends (some visit) (.error (visit.1.mismatch visit.2))

/-- The first visit that does not fit. -/
def misfit? (visits : List (Target × Value)) : Option (Target × Value) :=
  visits.find? fun visit => !visit.1.takes visit.2.kind

theorem Ends.map {visit? : Option (Target × Value)} {taken : Except TypeFault α} (f : α → β)
    (ends : Ends visit? taken) : Ends visit? (taken.map f) := by
  cases ends with
  | taken => exact .taken
  | stopped => exact .stopped

/-- What is taken out of a list of values stops at the first of them that it stops at. -/
theorem ends_mapM {f : Value → Except TypeFault α} {visits : Value → List (Target × Value)}
    (each : ∀ value, Ends (misfit? (visits value)) (f value)) (values : List Value) :
    Ends (misfit? (values.flatMap visits)) (values.mapM f) := by
  induction values with
  | nil => exact .taken
  | cons value values ih =>
      rw [List.flatMap_cons, misfit?, List.find?_append, List.mapM_cons]
      have hFirst := each value
      rw [misfit?] at hFirst ih
      generalize f value = taken, List.find? _ (visits value) = first at hFirst ⊢
      generalize values.mapM f = others, List.find? _ (values.flatMap visits) = next at ih ⊢
      cases hFirst with
      | stopped => exact .stopped
      | taken =>
          cases ih with
          | stopped => exact .stopped
          | taken => exact .taken

/-- What is taken out of each of several values is taken out of all of them. -/
theorem exists_mapM_of_each {target : Target} {values : List Value}
    (each : ∀ value ∈ values, ∃ data, target.extract value = .ok data ∧
      target.toValue data = value) :
    ∃ data, values.mapM target.extract = .ok data ∧ data.map target.toValue = values := by
  induction values with
  | nil => exact ⟨[], rfl, rfl⟩
  | cons value values ih =>
      obtain ⟨⟨a, hTaken, hMade⟩, hOthers⟩ := List.forall_mem_cons.1 each
      obtain ⟨as, hTakenAll, hMadeAll⟩ := ih hOthers
      refine ⟨a :: as, ?_, by rw [List.map_cons, hMade, hMadeAll]⟩
      rw [List.mapM_cons, hTaken, hTakenAll]
      rfl

end

theorem extract_option {target : Target} {value : Value} (some_value : value ≠ .null) :
    (option target).extract value = (target.extract value).map some := by
  cases value with
  | null => exact absurd rfl some_value
  | _ => rfl

theorem visits_option {target : Target} {value : Value} (some_value : value ≠ .null) :
    (option target).visits value = target.visits value := by
  cases value with
  | null => exact absurd rfl some_value
  | _ => rfl

/-- Extraction stops at the first visit that does not fit, and nowhere else. -/
theorem extract_ends (target : Target) (value : Value) :
    Ends (misfit? (target.visits value)) (target.extract value) := by
  induction target generalizing value with
  | list item ih =>
      cases value with
      | array items => exact ends_mapM ih items
      | _ => exact .stopped
  | option target ih =>
      by_cases hNull : value = .null
      · subst hNull
        exact .taken
      · rw [visits_option hNull, extract_option hNull]
        exact (ih value).map some
  | string =>
      cases value with
      | string => exact .taken
      | _ => exact .stopped
  | integer =>
      cases value with
      | integer => exact .taken
      | _ => exact .stopped
  | float =>
      cases value with
      | float => exact .taken
      | integer => exact .taken
      | _ => exact .stopped
  | boolean =>
      cases value with
      | boolean => exact .taken
      | _ => exact .stopped
  | extended kind =>
      cases kind with
      | url =>
          cases value with
          | url => exact .taken
          | _ => exact .stopped
      | socket =>
          cases value with
          | socket => exact .taken
          | _ => exact .stopped
      | pubkey =>
          cases value with
          | pubkey => exact .taken
          | _ => exact .stopped

/-- A fault of extraction is that of the first visit that does not fit. -/
theorem extract_eq_error_iff {target : Target} {value : Value} {fault : TypeFault} :
    target.extract value = .error fault ↔
      ∃ wanted found before after, target.visits value = before ++ (wanted, found) :: after ∧
        (∀ visit ∈ before, visit.1.takes visit.2.kind = true) ∧
        wanted.takes found.kind = false ∧ fault = .mismatch wanted.text found.kind.text := by
  have hEnds := extract_ends target value
  have hMisfit : ∀ wanted found, misfit? (target.visits value) = some (wanted, found) ↔
      ∃ before after, target.visits value = before ++ (wanted, found) :: after ∧
        (∀ visit ∈ before, visit.1.takes visit.2.kind = true) ∧
        wanted.takes found.kind = false := by
    intro wanted found
    simp only [misfit?, List.find?_eq_some_iff_append, Bool.not_eq_true', Bool.not_not]
    tauto
  constructor
  · intro hFails
    rw [hFails] at hEnds
    generalize hFirst : misfit? _ = visit? at hEnds
    cases hEnds with
    | @stopped visit =>
        obtain ⟨before, after, hVisits, hBefore, hKind⟩ := (hMisfit visit.1 visit.2).1 hFirst
        exact ⟨visit.1, visit.2, before, after, hVisits, hBefore, hKind, rfl⟩
  · rintro ⟨wanted, found, before, after, hVisits, hBefore, hKind, rfl⟩
    rw [(hMisfit wanted found).2 ⟨before, after, hVisits, hBefore, hKind⟩] at hEnds
    generalize target.extract value = taken at hEnds
    cases hEnds with
    | stopped => rfl

/-- Extraction fails if anything that is visited does not fit. -/
theorem extract_fails_iff {target : Target} {value : Value} :
    (∃ fault, target.extract value = .error fault) ↔
      ∃ visit ∈ target.visits value, visit.1.takes visit.2.kind = false := by
  have hEnds := extract_ends target value
  constructor
  · rintro ⟨fault, hFails⟩
    obtain ⟨wanted, found, before, after, hVisits, -, hKind, -⟩ := extract_eq_error_iff.1 hFails
    exact ⟨(wanted, found), by simp [hVisits], hKind⟩
  · rintro ⟨visit, mem, hKind⟩
    generalize hFirst : misfit? _ = visit?, target.extract value = taken at hEnds
    cases hEnds with
    | stopped => exact ⟨_, rfl⟩
    | taken => simpa [hKind] using List.find?_eq_none.1 hFirst visit mem

end Target

/-! ### What was checked -/

variable {registry : Registry} {options : Options}

/-- A value of a declared type makes up the data that its target takes out. -/
theorem Node.HasType.extracts {type : TypeExpr} {node : Node} {value : Value} {target : Target}
    (typed : Node.HasType registry options type node value) (wanted : type.target? = some target) :
    value ≠ .null ∧ ∃ data, target.extract value = .ok data ∧ target.toValue data = value := by
  induction type generalizing node value target with
  | named name => cases wanted
  | array item ih =>
      obtain ⟨inner, hInner, rfl⟩ := Option.map_eq_some_iff.1 wanted
      cases typed with
      | @array _ items values span lengths each =>
          have hEach : ∀ part ∈ values, ∃ data, inner.extract part = .ok data ∧
              inner.toValue data = part := by
            intro part mem
            obtain ⟨node, hTyped⟩ := exists_of_mem_right lengths each part mem
            exact (ih hTyped hInner).2
          obtain ⟨data, hData, hMade⟩ := Target.exists_mapM_of_each hEach
          exact ⟨nofun, data, hData, congrArg Value.array hMade⟩
  | extended kind =>
      cases wanted
      have hDenotes : ∃ raw, options.denote kind raw = .ok value := by
        cases typed with
        | quoted denotes | extended denotes => exact ⟨_, denotes⟩
      obtain ⟨raw, denotes⟩ := hDenotes
      rcases Options.denote_eq_ok denotes with
        ⟨_, rfl, rfl, -⟩ | ⟨_, rfl, rfl, -⟩ | ⟨_, rfl, rfl, -⟩ <;>
        exact ⟨nofun, _, rfl, rfl⟩
  | _ =>
      cases wanted
      cases typed <;> exact ⟨nofun, _, rfl, rfl⟩

/-- A field that is filled takes some written value. -/
theorem Entry.Fill.exists_takes {declared : List Field} {entries : List Entry}
    {fields : List (String × Value)} (fill : Entry.Fill registry options declared entries fields)
    {key : String} {part : Value} {field : Field} (mem : (key, part) ∈ fields)
    (found : declared.find? (·.name = key) = some field) :
    ∃ node, Field.Takes registry options field node part := by
  obtain ⟨-, -, keys, each⟩ := fill
  obtain ⟨hLengths, hKeys⟩ := Entry.keys_eq_iff.1 keys
  obtain ⟨entry, hPair⟩ := exists_of_mem_right hLengths (fun _ _ mem => mem) _ mem
  have hKey : entry.key = key := hKeys entry (key, part) hPair
  exact ⟨entry.value, each entry (key, part) field hPair (hKey ▸ found)⟩

/-! ### Fields of what was checked -/

theorem Registry.declares_of_get? {name : String} {d : Declaration}
    (found : registry.get? name = some d) : registry.Declares (.named name) := by
  rintro _ ⟨⟩
  exact ⟨d, List.mem_of_find?_eq_some found, by simpa using List.find?_some found⟩

section

variable {type? : Option TypeExpr} {node : Node} {value part : Value}

/-- A declared type with an unknown name demands no more than none does. -/
theorem Node.Fits.of_undeclared (undeclared : registry.Undeclared type?)
    (fits : Node.Fits registry options type? node value) :
    Node.Fits registry options none node value := by
  cases type? with
  | none => exact fits
  | some type =>
      obtain ⟨name, rfl, hUnknown⟩ := undeclared type rfl
      cases fits with
      | record found => simp [hUnknown] at found
      | choice found => simp [hUnknown] at found
      | undeclared _ acceptable => exact acceptable

/-- An object that was checked against declared fields fills them. -/
theorem Registry.TakesObject.exists_fill {typeName : Option String} {declared : OwnedFields}
    {fields : List (String × Value)} (takes : registry.TakesObject type? typeName declared)
    (fits : Node.Fits registry options type? node (.object typeName fields)) :
    ∃ entries, Entry.Fill registry options declared.fields entries fields := by
  have hFill : ∀ own?, (∀ type ∈ own?, registry.Declares type) →
      registry.TakesObject own? typeName declared →
      Node.Fits registry options own? node (.object typeName fields) →
      ∃ entries, Entry.Fill registry options declared.fields entries fields := by
    intro own? declares takes fits
    rcases fits.object_cases declares with ⟨rfl, rfl, -⟩ | ⟨other, entries, takes', fill⟩
    · exact absurd takes registry.undeclared_none.not_takesObject
    · exact ⟨entries, takes.unique takes' ▸ fill⟩
  cases takes with
  | annotated found body position =>
      rcases position with hUndeclared | rfl
      · exact hFill none nofun (.annotated found body (.inl registry.undeclared_none))
          (fits.of_undeclared hUndeclared)
      · refine hFill _ ?_ (.annotated found body (.inr rfl)) fits
        rintro _ ⟨⟩
        exact registry.declares_of_get? found
  | plain found body =>
      refine hFill _ ?_ (.plain found body) fits
      rintro _ ⟨⟩
      exact registry.declares_of_get? found

/-- An alternative that was checked against its declaration has the declared shape. -/
theorem Registry.TakesVariant.exists_shaped {enum name : String} {shape : Payload Slot Field}
    {payload : Payload Value (String × Value)}
    (takes : registry.TakesVariant type? enum name shape)
    (fits : Node.Fits registry options type? node (.variant enum name payload)) :
    ∃ written, Payload.HasShape registry options shape written payload := by
  have hShaped : ∀ own?, (∀ type ∈ own?, registry.Declares type) →
      registry.TakesVariant own? enum name shape →
      Node.Fits registry options own? node (.variant enum name payload) →
      ∃ written, Payload.HasShape registry options shape written payload := by
    intro own? declares takes fits
    obtain ⟨other, written, takes', shaped⟩ := fits.variant_cases declares
    exact ⟨written, takes.unique takes' ▸ shaped⟩
  cases takes with
  | intro found body alternative position =>
      rcases position with hUndeclared | rfl
      · exact hShaped none nofun (.intro found body alternative (.inl registry.undeclared_none))
          (fits.of_undeclared hUndeclared)
      · refine hShaped _ ?_ (.intro found body alternative (.inr rfl)) fits
        rintro _ ⟨⟩
        exact registry.declares_of_get? found

/-- What a value that was checked has under the key of a declared field is what the field takes. -/
theorem Value.HasField.exists_takes {field : Field} (has : value.HasField registry type? field part)
    (fits : Node.Fits registry options type? node value) :
    ∃ node, Field.Takes registry options field node part := by
  cases has with
  | object takes mem found =>
      obtain ⟨entries, fill⟩ := takes.exists_fill fits
      exact fill.exists_takes mem found
  | payload takes mem found =>
      obtain ⟨written, shaped⟩ := takes.exists_shaped fits
      cases shaped with
      | fields fill => exact fill.exists_takes mem found

/-- The data of a field is missing exactly if its value is null, and that is so for an optional
field only. -/
theorem Field.Takes.extracts {field : Field} {target : Target}
    (takes : Field.Takes registry options field node part)
    (wanted : field.type.target? = some target) :
    (part = .null → field.optional = true) ∧ ∃ data,
      (Target.option target).extract part = .ok data ∧
      (Target.option target).toValue data = part ∧ (data = none ↔ part = .null) := by
  cases takes with
  | typed typed =>
      obtain ⟨hNull, data, hTaken, hMade⟩ := typed.extracts wanted
      refine ⟨fun null => absurd null hNull, some data, ?_, hMade, by simp [hNull]⟩
      rw [Target.extract_option hNull, hTaken]
      rfl
  | null optional => exact ⟨fun _ => optional, none, rfl, rfl, by simp⟩

end

/-- Checking and extraction agree. What is checked with success against a type of built-in types and
arrays gives up data at the target of that type, and the data makes up the value again, so its
leaves are those of the value, in their order and nesting. What stands in a field of such a type
gives up data at the optional target, and none exactly if it is null, as only an optional field can
be. Any target fails on any value exactly if a target meets a value there of a kind that it does not
take, and what is reported is the first such meeting, by the kinds of the two. -/
theorem extraction_agrees (registry : Registry) (options : Options) :
    (∀ type target node value, TypeExpr.target? type = some target →
      (Node.check registry options (some type) node).value? = some value →
      ∃ data, target.extract value = .ok data ∧ target.toValue data = value) ∧
    (∀ type? node value field part target,
      (Node.check registry options type? node).value? = some value →
      value.HasField registry type? field part → field.type.target? = some target →
      (part = .null → field.optional = true) ∧
      ∃ data, (Target.option target).extract part = .ok data ∧
        (Target.option target).toValue data = part ∧ (data = none ↔ part = .null)) ∧
    (∀ target value, (∃ fault, Target.extract target value = .error fault) ↔
      ∃ visit ∈ target.visits value, visit.1.takes visit.2.kind = false) ∧
    ∀ target value fault, Target.extract target value = .error fault ↔
      ∃ wanted found before after, target.visits value = before ++ (wanted, found) :: after ∧
        (∀ visit ∈ before, visit.1.takes visit.2.kind = true) ∧
        wanted.takes found.kind = false ∧ fault = .mismatch wanted.text found.kind.text := by
  have hFits : ∀ {type? node value}, (Node.check registry options type? node).value? = some value →
      Node.Fits registry options type? node value := fun {type? node value} hValue =>
    Node.check_eq_accept_iff.1 ((node.check_settled type?).value?_eq_some_iff.1 hValue)
  refine ⟨?_, ?_, fun target value => Target.extract_fails_iff,
    fun target value fault => Target.extract_eq_error_iff⟩
  · intro type target node value wanted hValue
    have hTyped : Node.HasType registry options type node value := hFits hValue
    exact (hTyped.extracts wanted).2
  · intro type? node value field part target hValue has wanted
    obtain ⟨written, takes⟩ := has.exists_takes (hFits hValue)
    exact takes.extracts wanted

/-- An integer in an optional field of floating-point numbers is taken out as such a number. -/
theorem extraction_agrees_on_widened_item :
    let place : Span := ⟨"main", 1, 1⟩
    let field : Field := ⟨"xs", .array .float, true, place⟩
    let registry : Registry := ⟨[⟨"T", .record [field], place⟩], by simp⟩
    let node : Node := ⟨.object (some "T")
      [⟨"xs", place, ⟨.array [⟨.integer 1, place⟩], place⟩⟩] place, place⟩
    let items : Value := .array [.float (.ofInteger 1)]
    let value : Value := .object (some "T") [("xs", items)]
    (node.check registry .default none).value? = some value ∧
      value.HasField registry none field items ∧ (items = .null → field.optional = true) ∧
      ∃ data, (Target.option (.list .float)).extract items = .ok data ∧
        (Target.option (.list .float)).toValue data = items ∧ (data = none ↔ items = .null) := by
  intro place field registry node items value
  have hValue : (node.check registry .default none).value? = some value := by rfl
  have hField : value.HasField registry none field items :=
    .object (.annotated rfl rfl (.inl registry.undeclared_none)) List.mem_cons_self rfl
  exact ⟨hValue, hField,
    (extraction_agrees registry .default).2.1 none node value field items _ hValue hField rfl⟩

end TypedConfig
