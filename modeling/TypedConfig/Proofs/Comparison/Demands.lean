import TypedConfig.Proofs.Comparison.Verdicts
import TypedConfig.Proofs.Printing.Retyping
/-!
What two registries demand of a value. Where they give the names in question the same meaning, they
demand the same up to places, and so they plan the same checks for the parts of the value.
-/
namespace TypedConfig

variable {t : Tolerance} {names : String → Prop} {registry other : Registry}

theorem TypeExpr.Within.named {name : String} (within : (TypeExpr.named name).Within names) :
    names name :=
  within name .named

theorem TypeExpr.Within.item {item : TypeExpr} (within : (TypeExpr.array item).Within names) :
    item.Within names :=
  fun name refers => within name (.array refers)

/-! ### Declarations up to places -/

/-- Fields are the same up to places, and their types refer to names as told. -/
structure Field.Alike (names : String → Prop) (fields others : List Field) : Prop where
  same : fields.map Field.unplaced = others.map Field.unplaced
  within : ∀ f ∈ fields, f.type.Within names

/-- What alternatives carry is the same up to places, and its types refer to names as told. -/
structure Payload.Alike (names : String → Prop) (shape other : Payload Slot Field) : Prop where
  same : shape.unplaced = other.unplaced
  within : ∀ type ∈ shape.types, type.Within names

/-- Alternatives are the same up to places, and their types refer to names as told. -/
structure Variant.Alike (names : String → Prop) (variants others : List Variant) : Prop where
  same : variants.map Variant.unplaced = others.map Variant.unplaced
  within : ∀ v ∈ variants, ∀ type ∈ v.shape.types, type.Within names

/-- Declarations give names to the same up to places, and their types refer to names as told. -/
inductive Declaration.Body.Alike (names : String → Prop) : Body → Body → Prop where
  | record {fields others : List Field} (alike : Field.Alike names fields others) :
      Alike names (.record fields) (.record others)
  | choice {variants others : List Variant} (alike : Variant.Alike names variants others) :
      Alike names (.choice variants) (.choice others)

theorem Field.Alike.find? {fields others : List Field} (alike : Field.Alike names fields others)
    (key : String) :
    Option.Rel (fun f g => f.unplaced = g.unplaced ∧ f.type.Within names)
      (fields.find? (·.name = key)) (others.find? (·.name = key)) := by
  have hMap := map_find?_eq Field.unplaced Field.name (fun _ => rfl) alike.same key
  exact rel_imp (fun f _ related =>
    ⟨related.2, alike.within f (List.mem_of_find?_eq_some related.1)⟩) (rel_of_map_eq hMap)

theorem Variant.Alike.find? {variants others : List Variant}
    (alike : Variant.Alike names variants others) (key : String) :
    Option.Rel (fun v w => Payload.Alike names v.shape w.shape)
      (variants.find? (·.name = key)) (others.find? (·.name = key)) := by
  have hMap := map_find?_eq Variant.unplaced Variant.name (fun _ => rfl) alike.same key
  exact rel_imp (fun v _ related => ⟨congrArg Variant.shape related.2,
    alike.within v (List.mem_of_find?_eq_some related.1)⟩) (rel_of_map_eq hMap)

/-- The forms of a payload do not depend on places. -/
theorem Payload.Alike.cases {shape other : Payload Slot Field}
    (alike : Payload.Alike names shape other) :
    (shape = .unit ∧ other = .unit) ∨
      (∃ slots others, shape = .tuple slots ∧ other = .tuple others ∧
        slots.map Slot.type = others.map Slot.type ∧ ∀ s ∈ slots, s.type.Within names) ∨
      ∃ fields others, shape = .fields fields ∧ other = .fields others ∧
        Field.Alike names fields others := by
  obtain ⟨same, within⟩ := alike
  cases shape with
  | unit => cases other <;> simp_all [unplaced]
  | tuple slots =>
      cases other with
      | tuple others =>
          have hSlots := congrArg (List.map Slot.type) (Payload.tuple.inj same)
          rw [List.map_map, List.map_map] at hSlots
          exact .inr (.inl ⟨slots, others, rfl, rfl, hSlots,
            fun s mem => within s.type (List.mem_map_of_mem mem)⟩)
      | _ => cases same
  | fields fields =>
      cases other with
      | fields others =>
          exact .inr (.inr ⟨fields, others, rfl, rfl, Payload.fields.inj same,
            fun f mem => within f.type (List.mem_map_of_mem mem)⟩)
      | _ => cases same

theorem Payload.Alike.describe {shape other : Payload Slot Field}
    (alike : Payload.Alike names shape other) : shape.describe = other.describe := by
  rcases alike.cases with ⟨rfl, rfl⟩ | ⟨slots, others, rfl, rfl, hTypes, -⟩ | ⟨_, _, rfl, rfl, -⟩
  · rfl
  · have hLength : slots.length = others.length := by simpa using congrArg List.length hTypes
    simp only [Payload.describe, hLength]
  · rfl

/-- Declarations that are the same up to places give their names to the same. -/
theorem Declaration.body_alike {d d' : Declaration} (same : d.unplaced = d'.unplaced)
    (within : ∀ type ∈ d.types, type.Within names) :
    Declaration.Body.Alike names d.body d'.body := by
  have hBody : d.body.unplaced = d'.body.unplaced := congrArg Declaration.body same
  rw [Declaration.types] at within
  generalize d.body = body at hBody within ⊢
  generalize d'.body = body' at hBody ⊢
  cases body with
  | record fields =>
      cases body' with
      | record others =>
          exact .record ⟨Declaration.Body.record.inj hBody,
            fun f mem => within f.type (List.mem_map_of_mem mem)⟩
      | choice _ => cases hBody
  | choice variants =>
      cases body' with
      | record _ => cases hBody
      | choice others =>
          exact .choice ⟨Declaration.Body.choice.inj hBody,
            fun v mem type hType => within type (List.mem_flatMap.2 ⟨v, mem, hType⟩)⟩

/-- The registries give a name of which this is asked the same meaning. -/
theorem Registry.AgreesOn.body (alike : Registry.AgreesOn names registry other) {name : String}
    (named : names name) :
    Option.Rel (Declaration.Body.Alike names) ((registry.get? name).map Declaration.body)
      ((other.get? name).map Declaration.body) := by
  have hFound := rel_of_map_eq (alike.alike name named)
  have hClosed := fun d => alike.closed name d named
  generalize registry.get? name = d? at hFound hClosed ⊢
  generalize other.get? name = d'? at hFound ⊢
  cases hFound with
  | none => exact .none
  | @some d d' related =>
      obtain ⟨mem, hSame⟩ := related
      exact .some (Declaration.body_alike hSame (hClosed d mem))

/-! ### Demands -/

/-- The same is demanded up to places. -/
inductive Demand.Alike (names : String → Prop) : Demand → Demand → Prop where
  | anything : Alike names .anything .anything
  | string : Alike names .string .string
  | integer : Alike names .integer .integer
  | float : Alike names .float .float
  | boolean : Alike names .boolean .boolean
  | extended {kind : Extended} : Alike names (.extended kind) (.extended kind)
  | array {item : TypeExpr} (within : item.Within names) : Alike names (.array item) (.array item)
  | record {name : String} {fields others : List Field}
      (alike : Field.Alike names fields others) :
      Alike names (.record name fields) (.record name others)
  | choice {name : String} {variants others : List Variant}
      (alike : Variant.Alike names variants others) :
      Alike names (.choice name variants) (.choice name others)

theorem Registry.AgreesOn.demand (alike : Registry.AgreesOn names registry other)
    {type? : Option TypeExpr} (within : ∀ type ∈ type?, type.Within names) :
    Demand.Alike names (registry.demand type?) (other.demand type?) := by
  cases type? with
  | none => exact .anything
  | some type =>
      have hWithin := within type rfl
      cases type with
      | string => exact .string
      | integer => exact .integer
      | float => exact .float
      | boolean => exact .boolean
      | extended kind => exact .extended
      | array item => exact .array hWithin.item
      | named name =>
          have hBody := alike.body hWithin.named
          simp only [Registry.demand]
          generalize (registry.get? name).map Declaration.body = body? at hBody ⊢
          generalize (other.get? name).map Declaration.body = other? at hBody ⊢
          cases hBody with
          | none => exact .anything
          | some same =>
              cases same with
              | record alike => exact .record alike
              | choice alike => exact .choice alike

theorem Demand.Alike.text {demand demand' : Demand} (alike : Demand.Alike names demand demand') :
    demand.text = demand'.text := by
  cases alike <;> rfl

theorem Demand.Alike.mismatch {demand demand' : Demand}
    (alike : Demand.Alike t.names demand demand') {form form' : Form} {span span' : Span}
    (described : form.describe = form'.describe) (here : t.places span span') :
    (demand.mismatch form span).Varies t (demand'.mismatch form' span') := by
  refine ⟨?_, here⟩
  simp only [Demand.mismatch, alike.text, described]

/-! ### Literals without parts -/

theorem Options.checkExtended_agrees {options : Options} {kind : Extended} {raw : String}
    {span span' : Span} (here : t.places span span') :
    Verdict.Agrees t (Value.Varies t.free) (options.checkExtended kind raw span)
      (options.checkExtended kind raw span') := by
  rw [checkExtended, checkExtended]
  cases hDenotes : options.denote kind raw with
  | error fault => exact .refuse ⟨rfl, here⟩
  | ok value => exact .accept (.leaf (Value.parts_eq_nil_of_denotes hDenotes).1)

/-- For a literal without parts all that matters of a demand is what it is called. -/
theorem Demand.Alike.checkScalar {demand demand' : Demand}
    (alike : Demand.Alike names demand demand') (options : Options) (form : Form) (span : Span) :
    demand.checkScalar options form span = demand'.checkScalar options form span := by
  cases alike with
  | record | choice => cases form <;> rfl
  | _ => rfl

theorem Demand.checkScalar_agrees {options : Options} {demand : Demand} {form : Form}
    {span span' : Span} (here : t.places span span') :
    Verdict.Agrees t (Value.Varies t.free) (demand.checkScalar options form span)
      (demand.checkScalar options form span') := by
  have hMismatch : (demand.mismatch form span).Varies t (demand.mismatch form span') := ⟨rfl, here⟩
  fun_cases Demand.checkScalar options demand form span
  -- A literal with a keyword, or a quoted text where one is demanded.
  case case6 | case12 => exact Options.checkExtended_agrees here
  case case13 =>
      simp only [Demand.checkScalar, if_pos]
      exact Options.checkExtended_agrees here
  case case14 hKind =>
      simp only [Demand.checkScalar, if_neg hKind]
      exact .refuse hMismatch
  case case15 =>
      rw [Demand.checkScalar]
      · exact .refuse hMismatch
      all_goals assumption
  all_goals exact .accept (.leaf rfl)

end TypedConfig
