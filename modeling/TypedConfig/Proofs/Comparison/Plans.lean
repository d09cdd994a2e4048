import TypedConfig.Proofs.Comparison.Demands
/-!
How the parts of two written values are to be checked. Alike demands plan the same for the parts of
values that vary, and find the same fields missing, in whatever order the entries stand.
-/
namespace TypedConfig

variable {t : Tolerance} {registry other : Registry}

/-! ### Entries -/

/-- Declared fields with the same owner are the same up to places. -/
structure OwnedFields.Alike (names : String → Prop) (declared other : OwnedFields) : Prop where
  owner : declared.owner = other.owner
  fields : Field.Alike names declared.fields other.fields

/-- Values of entries are to be checked alike. -/
structure EntryPlan.Alike (t : Tolerance) (plan other : EntryPlan) : Prop where
  faults : Arranged t.free (Diagnostic.Varies t) plan.faults other.faults
  optional : plan.optional = other.optional
  type? : plan.type? = other.type?
  within : ∀ type ∈ plan.type?, type.Within t.names

theorem EntryPlan.ofKey_alike {declared? other? : Option OwnedFields} (key : String)
    {keySpan keySpan' : Span} (alike : Option.Rel (OwnedFields.Alike t.names) declared? other?)
    (here : t.places keySpan keySpan') :
    EntryPlan.Alike t (ofKey declared? key keySpan) (ofKey other? key keySpan') := by
  cases alike with
  | none => exact ⟨.nil, rfl, rfl, by simp [ofKey]⟩
  | @some declared declared' alike =>
      have hFind := alike.fields.find? key
      simp only [ofKey]
      generalize declared.fields.find? (·.name = key) = field? at hFind ⊢
      generalize declared'.fields.find? (·.name = key) = field'? at hFind ⊢
      cases hFind with
      | none => exact ⟨.one ⟨by simp only [alike.owner], here⟩, rfl, rfl, by simp⟩
      | @some f g hSame =>
          obtain ⟨hSame, hWithin⟩ := hSame
          have hOptional := congrArg Field.optional hSame
          have hType := congrArg Field.type hSame
          exact ⟨.nil, hOptional, congrArg some hType, by simpa using hWithin⟩

/-- Whether a key occurs does not depend on the order of entries. -/
theorem Entry.any_key_eq {entries others : List Entry}
    (varies : Arranged t.free (Entry.Varies t) entries others) (key : String) :
    entries.any (·.key = key) = others.any (·.key = key) := by
  obtain ⟨middle, hEach, hOrder⟩ := varies
  rw [← hOrder.perm.any_eq]
  clear hOrder
  induction hEach with
  | nil => rfl
  | cons first _ ih =>
      cases first with
      | intro => rw [List.any_cons, List.any_cons, ih]

theorem OwnedFields.missing_alike {declared declared' : OwnedFields} {entries others : List Entry}
    {span span' : Span} (alike : OwnedFields.Alike t.names declared declared')
    (varies : Arranged t.free (Entry.Varies t) entries others) (here : t.places span span') :
    Arranged t.free (Diagnostic.Varies t) (declared.missing entries span)
      (declared'.missing others span') := by
  -- What is reported of a field, which depends on neither its place nor its type.
  let report (span : Span) (f : Field) : Diagnostic :=
    ⟨.typing (.missingField declared.owner f.name), span⟩
  have hUnplaced : ∀ (span : Span) (fields : List Field),
      (fields.filter fun f => !f.optional && !entries.any (·.key = f.name)).map (report span) =
        ((fields.map Field.unplaced).filter fun f =>
          !f.optional && !entries.any (·.key = f.name)).map (report span) := by
    intro span fields
    rw [List.filter_map, List.map_map]
    rfl
  have hOther : declared'.missing others span' = (declared'.fields.filter fun f =>
      !f.optional && !entries.any (·.key = f.name)).map (report span') := by
    simp only [missing, ← Entry.any_key_eq varies, ← alike.owner, report]
  rw [hOther, hUnplaced, ← alike.fields.same, ← hUnplaced, missing]
  refine .of_forall₂ ?_
  rw [List.forall₂_map_left_iff, List.forall₂_map_right_iff, List.forall₂_same]
  exact fun f _ => ⟨rfl, here⟩

/-! ### Objects and alternatives -/

/-- Parts are to be checked alike, and what is wrong already varies. -/
inductive Plan.Alike {α : Type} (t : Tolerance) (R : α → α → Prop) : Plan α → Plan α → Prop where
  | declared {how how' : α} (alike : R how how') : Alike t R (.declared how) (.declared how')
  | undeclared {faults faults' : List Diagnostic}
      (varies : Arranged t.free (Diagnostic.Varies t) faults faults') :
      Alike t R (.undeclared faults) (.undeclared faults')
  | skipped {fault fault' : Diagnostic} (varies : fault.Varies t fault') :
      Alike t R (.skipped fault) (.skipped fault')

theorem Demand.Alike.objectPlan {demand demand' : Demand}
    (alike : Demand.Alike t.names demand demand')
    (registries : Registry.AgreesOn t.names registry other) {typeName : Option String}
    (named : ∀ name ∈ typeName, t.names name) {opened opened' span span' : Span}
    (brace : t.places opened opened') (here : t.places span span') :
    Plan.Alike t (OwnedFields.Alike t.names) (demand.objectPlan registry typeName opened span)
      (demand'.objectPlan other typeName opened' span') := by
  have hDescribed : (Form.object typeName [] opened).describe =
      (Form.object typeName [] opened').describe := by
    cases typeName <;> rfl
  have hMismatch := alike.mismatch hDescribed here
  cases alike with
  | anything =>
      cases typeName with
      | none => exact .undeclared .nil
      | some name =>
          have hBody := registries.body (named name rfl)
          simp only [Demand.objectPlan]
          generalize (registry.get? name).map Declaration.body = body? at hBody ⊢
          generalize (other.get? name).map Declaration.body = other? at hBody ⊢
          cases hBody with
          | none => exact .undeclared (.one ⟨rfl, brace⟩)
          | some same =>
              cases same with
              | record alike => exact .declared ⟨rfl, alike⟩
              | choice alike => exact .skipped ⟨rfl, brace⟩
  | @record name _ _ alike =>
      cases typeName with
      | none => exact .declared ⟨rfl, alike⟩
      | some label =>
          simp only [Demand.objectPlan]
          by_cases hName : label = name
          · rw [if_pos hName, if_pos hName]
            exact .declared ⟨rfl, alike⟩
          · rw [if_neg hName, if_neg hName]
            exact .undeclared (.one hMismatch)
  | _ => exact .skipped hMismatch

theorem Payload.Varies.describe {payload payload' : Payload Node Entry}
    (varies : Payload.Varies t payload payload') : payload.describe = payload'.describe := by
  cases varies with
  | tuple each => simp only [Payload.describe, each.length_eq]
  | _ => rfl

theorem Payload.Alike.fits {names : String → Prop} {shape shape' : Payload Slot Field}
    {payload payload' : Payload Node Entry} (alike : Payload.Alike names shape shape')
    (varies : Payload.Varies t payload payload') : shape.fits payload = shape'.fits payload' := by
  rcases alike.cases with ⟨rfl, rfl⟩ | ⟨slots, others, rfl, rfl, hTypes, -⟩ | ⟨_, _, rfl, rfl, -⟩
  · cases varies <;> rfl
  · have hLength : slots.length = others.length := by simpa using congrArg List.length hTypes
    cases varies with
    | tuple each => simp only [Payload.fits, hLength, each.length_eq]
    | _ => rfl
  · cases varies <;> rfl

theorem Variant.Alike.plan {variants others : List Variant}
    (alike : Variant.Alike t.names variants others) {enum name : String}
    {payload payload' : Payload Node Entry} (varies : Payload.Varies t payload payload')
    {span span' : Span} (here : t.places span span') :
    Plan.Alike t (Payload.Alike t.names) (variantPlan enum variants name payload span)
      (variantPlan enum others name payload' span') := by
  have hFind := alike.find? name
  simp only [variantPlan]
  generalize variants.find? (·.name = name) = variant? at hFind ⊢
  generalize others.find? (·.name = name) = other? at hFind ⊢
  cases hFind with
  | none => exact .undeclared (.one ⟨rfl, here⟩)
  | @some v w alike =>
      simp only [alike.fits varies]
      by_cases hFits : w.shape.fits payload' = true
      · rw [if_pos hFits, if_pos hFits]
        exact .declared alike
      · rw [if_neg hFits, if_neg hFits]
        exact .undeclared (.one ⟨by simp only [alike.describe, varies.describe], here⟩)

theorem Demand.Alike.variantPlan {demand demand' : Demand}
    (alike : Demand.Alike t.names demand demand')
    (registries : Registry.AgreesOn t.names registry other) {enum : String}
    (named : t.names enum) (name : String) {payload payload' : Payload Node Entry}
    (varies : Payload.Varies t payload payload') {span span' : Span} (here : t.places span span') :
    Plan.Alike t (Payload.Alike t.names) (demand.variantPlan registry enum name payload span)
      (demand'.variantPlan other enum name payload' span') := by
  have hDescribed : (Form.variant enum name payload).describe =
      (Form.variant enum name payload').describe := rfl
  have hMismatch := alike.mismatch hDescribed here
  cases alike with
  | anything =>
      have hBody := registries.body named
      simp only [Demand.variantPlan]
      generalize (registry.get? enum).map Declaration.body = body? at hBody ⊢
      generalize (other.get? enum).map Declaration.body = other? at hBody ⊢
      cases hBody with
      | none => exact .undeclared (.one ⟨rfl, here⟩)
      | some same =>
          cases same with
          | record alike => exact .undeclared (.one ⟨rfl, here⟩)
          | choice alike => exact alike.plan varies here
  | @choice declared _ _ alike =>
      simp only [Demand.variantPlan]
      by_cases hName : enum = declared
      · rw [if_pos hName, if_pos hName]
        exact alike.plan varies here
      · rw [if_neg hName, if_neg hName]
        exact .undeclared (.one hMismatch)
  | _ => exact .skipped hMismatch

end TypedConfig
