import TypedConfig.Elaboration
import TypedConfig.Proofs.Typing.Parts
/-!
What is reported, and in which order. First comes what is wrong with a value itself, and then, one
part after the other, what is reported of each part when it is checked alone. So no report depends
on what was reported before it or on what stands beside it. The items of an array in an undeclared
position are the exception, since they are compared with each other.
-/
namespace TypedConfig

namespace Verdict

variable {α β γ : Type}

@[simp]
theorem errors_map {f : α → β} {v : Verdict α} : (v.map f).errors = v.errors := rfl

@[simp]
theorem errors_after {reports : List Diagnostic} {v : Verdict α} :
    (v.after reports).errors = reports ++ v.errors := rfl

@[simp]
theorem errors_both {f : α → β → γ} {v : Verdict α} {w : Verdict β} :
    (both f v w).errors = v.errors ++ w.errors := rfl

theorem errors_all {vs : List (Verdict α)} : (all vs).errors = vs.flatMap errors := by
  induction vs with
  | nil => rfl
  | cons v vs ih => rw [all, errors_both, ih, List.flatMap_cons]

end Verdict

section

variable (registry : Registry) (options : Options)

/-- What is reported of a value that is checked alone in a position. -/
def Node.reports (type? : Option TypeExpr) (node : Node) : List Diagnostic :=
  (node.check registry options type?).errors

/-- What is reported of an entry that is checked alone. The null of an optional field is never at
fault; a key that is no field is, and its value is then checked as one of an undeclared position. -/
def Entry.reports (declared : OwnedFields) (entry : Entry) : List Diagnostic :=
  match declared.fields.find? (·.name = entry.key) with
  | some field =>
    if field.optional && entry.value.isNull then []
    else entry.value.reports registry options (some field.type)
  | none =>
    ⟨.typing (.unknownField declared.owner entry.key), entry.keySpan⟩ ::
      entry.value.reports registry options none

/-- What is reported of a bundle; nothing if it is accepted. -/
def Bundle.reports (bundle : Bundle) : List Diagnostic :=
  match bundle.check registry options with
  | .ok _ => []
  | .error reports => reports

end

/-- The bundle with other entries in its root object. -/
def Bundle.withEntries (bundle : Bundle) (entries : List Entry) : Bundle :=
  { bundle with root := { bundle.root with entries } }

/-! ### Positions -/

namespace Registry

/-- A position that demands nothing: it has no declared type, or one that names no declaration. -/
def Undeclared (registry : Registry) (type? : Option TypeExpr) : Prop :=
  ∀ type ∈ type?, ∃ name, type = .named name ∧ registry.get? name = none

theorem undeclared_none (registry : Registry) : registry.Undeclared none := nofun

/-- An object is checked against declared fields: it has the name of their type as annotation, or
none where that type is declared. -/
inductive TakesObject (registry : Registry) :
    Option TypeExpr → Option String → OwnedFields → Prop where
  | annotated {type? : Option TypeExpr} {name : String} {d : Declaration} {fields : List Field}
      (found : registry.get? name = some d) (body : d.body = .record fields)
      (position : registry.Undeclared type? ∨ type? = some (.named name)) :
      TakesObject registry type? (some name) (.ofType name fields)
  | plain {name : String} {d : Declaration} {fields : List Field}
      (found : registry.get? name = some d) (body : d.body = .record fields) :
      TakesObject registry (some (.named name)) none (.ofType name fields)

/-- An alternative is checked against its declaration: it is one of the enum that it names, and no
other type is declared for its position. -/
inductive TakesVariant (registry : Registry) :
    Option TypeExpr → String → String → Payload Slot Field → Prop where
  | intro {type? : Option TypeExpr} {enum name : String} {d : Declaration}
      {variants : List Variant} {variant : Variant} (found : registry.get? enum = some d)
      (body : d.body = .choice variants)
      (alternative : variants.find? (·.name = name) = some variant)
      (position : registry.Undeclared type? ∨ type? = some (.named enum)) :
      TakesVariant registry type? enum name variant.shape

variable {registry : Registry}

theorem Undeclared.demand {type? : Option TypeExpr} (undeclared : registry.Undeclared type?) :
    registry.demand type? = .anything := by
  cases type? with
  | none => rfl
  | some type =>
      obtain ⟨name, rfl, hUnknown⟩ := undeclared type rfl
      simp [Registry.demand, hUnknown]

theorem demand_record {name : String} {d : Declaration} {fields : List Field}
    (found : registry.get? name = some d) (body : d.body = .record fields) :
    registry.demand (some (.named name)) = .record name fields := by
  simp [Registry.demand, found, body]

theorem demand_choice {enum : String} {d : Declaration} {variants : List Variant}
    (found : registry.get? enum = some d) (body : d.body = .choice variants) :
    registry.demand (some (.named enum)) = .choice enum variants := by
  simp [Registry.demand, found, body]

theorem TakesObject.plan {type? : Option TypeExpr} {typeName : Option String}
    {declared : OwnedFields} (takes : registry.TakesObject type? typeName declared)
    (opened span : Span) :
    (registry.demand type?).objectPlan registry typeName opened span = .declared declared := by
  cases takes with
  | annotated found body position =>
      rcases position with hUndeclared | rfl
      · rw [hUndeclared.demand]
        simp [Demand.objectPlan, found, body]
      · rw [demand_record found body]
        simp [Demand.objectPlan]
  | plain found body =>
      rw [demand_record found body]
      rfl

theorem TakesVariant.plan {type? : Option TypeExpr} {enum name : String}
    {shape : Payload Slot Field} (takes : registry.TakesVariant type? enum name shape)
    {payload : Payload Node Entry} (fits : shape.fits payload = true) (span : Span) :
    (registry.demand type?).variantPlan registry enum name payload span = .declared shape := by
  cases takes with
  | intro found body alternative position =>
      rcases position with hUndeclared | rfl
      · rw [hUndeclared.demand]
        simp [Demand.variantPlan, found, body, TypedConfig.variantPlan, alternative, fits]
      · rw [demand_choice found body]
        simp [Demand.variantPlan, TypedConfig.variantPlan, alternative, fits]

end Registry

/-! ### Values with parts -/

section

variable {registry : Registry} {options : Options}

theorem Node.errors_checkAll {type? : Option TypeExpr} {nodes : List Node} :
    (Verdict.all (Node.checkAll registry options type? nodes)).errors =
      nodes.flatMap (Node.reports registry options type?) := by
  rw [Verdict.errors_all, checkAll_eq_map, List.flatMap_map]
  rfl

theorem Node.errors_checkSlots {slots : List Slot} {nodes : List Node} :
    (Verdict.all (Node.checkSlots registry options slots nodes)).errors =
      (slots.zip nodes).flatMap fun pair =>
        pair.2.reports registry options (some pair.1.type) := by
  rw [Verdict.errors_all, checkSlots_eq_map, List.flatMap_map]
  rfl

theorem Entry.errors_check {declared : OwnedFields} {entry : Entry} :
    (entry.check registry options (some declared)).errors =
      entry.reports registry options declared := by
  rw [check, reports]
  cases hField : declared.fields.find? (·.name = entry.key) with
  | none => simp [EntryPlan.ofKey, hField, Node.reports]
  | some field =>
      simp only [EntryPlan.ofKey, hField, Verdict.errors_map, Verdict.errors_after, List.nil_append]
      split
      · rfl
      · rfl

theorem Entry.errors_checkAll {entries : List Entry} :
    (Verdict.all (Entry.checkAll registry options none entries)).errors =
      entries.flatMap fun entry => entry.value.reports registry options none := by
  rw [Verdict.errors_all, checkAll_eq_map, List.flatMap_map]
  rfl

theorem Entry.errors_checkAll_declared {declared : OwnedFields} {entries : List Entry} :
    (Verdict.all (Entry.checkAll registry options (some declared) entries)).errors =
      entries.flatMap (Entry.reports registry options declared) := by
  rw [Verdict.errors_all, checkAll_eq_map, List.flatMap_map]
  simp only [errors_check]

namespace Form

/-- What is reported of an object follows from the plan for its entries. -/
theorem errors_check_object {demand : Demand} {typeName : Option String} {entries : List Entry}
    {opened span : Span} :
    ((Form.object typeName entries opened).check registry options demand span).errors =
      match demand.objectPlan registry typeName opened span with
      | .declared declared => declared.missing entries opened ++
          entries.flatMap (Entry.reports registry options declared)
      | .undeclared faults =>
        faults ++ entries.flatMap fun entry => entry.value.reports registry options none
      | .skipped fault => [fault] := by
  rw [Form.check]
  cases demand.objectPlan registry typeName opened span with
  | declared declared => simp [Entry.errors_checkAll_declared]
  | undeclared faults => simp [Entry.errors_checkAll]
  | skipped fault => rfl

/-- What is reported of an alternative follows from the plan for its payload. -/
theorem errors_check_variant {demand : Demand} {enum name : String} {payload : Payload Node Entry}
    {span : Span} :
    ((Form.variant enum name payload).check registry options demand span).errors =
      match demand.variantPlan registry enum name payload span with
      | .declared shape => (payload.check registry options (Value.variantPath enum name) span
          (some shape)).errors
      | .undeclared faults => faults ++ payload.parts.flatMap (Node.reports registry options none)
      | .skipped fault => [fault] := by
  rw [Form.check]
  cases demand.variantPlan registry enum name payload span with
  | declared shape => rfl
  | undeclared faults =>
      cases payload with
      | unit => rfl
      | tuple items =>
          simp only [Payload.check, Verdict.errors_map, Verdict.errors_after, Node.errors_checkAll,
            Payload.parts]
      | fields entries =>
          simp only [Payload.check, Verdict.errors_map, Verdict.errors_after,
            Entry.errors_checkAll, Payload.parts, List.flatMap_map]
  | skipped fault => rfl

end Form

theorem Payload.errors_check_tuple {path : String} {span : Span} {slots : List Slot}
    {items : List Node} :
    ((Payload.tuple items).check registry options path span (some (.tuple slots))).errors =
      (slots.zip items).flatMap fun pair =>
        pair.2.reports registry options (some pair.1.type) := by
  rw [Payload.check, Verdict.errors_map, Node.errors_checkSlots]

theorem Payload.errors_check_fields {path : String} {span : Span} {fields : List Field}
    {entries : List Entry} :
    ((Payload.fields entries).check registry options path span (some (.fields fields))).errors =
      (OwnedFields.mk ("variant " ++ path) fields).missing entries span ++
        entries.flatMap (Entry.reports registry options ⟨"variant " ++ path, fields⟩) := by
  rw [Payload.check, Verdict.errors_map, Verdict.errors_after, Entry.errors_checkAll_declared]

/-- What is reported of a bundle: the references of the declarations, and then entry by entry. -/
theorem Bundle.reports_eq {bundle : Bundle} :
    bundle.reports registry options = registry.unresolved ++
      bundle.root.entries.flatMap fun entry => entry.value.reports registry options none := by
  have hReports : ∀ v : Verdict Configuration,
      (match v.toExcept with
        | .ok _ => []
        | .error reports => reports) = v.errors := by
    rintro ⟨errors, value?⟩
    cases value? with
    | none => rfl
    | some c => cases errors <;> rfl
  rw [reports, check, hReports, Verdict.errors_after, Verdict.errors_map, Entry.errors_checkAll]

end

/-- Reports are compositional. Those on a bundle are those on its declarations and then, entry by
entry, those on the entry as the only one of the root; so the reports on some entries stay in front
of those on later ones, and another entry in the place of one has its reports in the place of the
other's. At every level below, the reports on a value without a fault of its own are those on its
parts in the order of the source text; fields that are missing come first. -/
theorem reports_compose (registry : Registry) (options : Options) :
    (∀ bundle : Bundle, bundle.reports registry options = registry.unresolved ++
      bundle.root.entries.flatMap fun entry => entry.value.reports registry options none) ∧
    (∀ (bundle : Bundle) (entry : Entry), (bundle.withEntries [entry]).reports registry options =
      registry.unresolved ++ entry.value.reports registry options none) ∧
    (∀ (bundle : Bundle) (before after : List Entry),
      (bundle.withEntries before).reports registry options <+:
        (bundle.withEntries (before ++ after)).reports registry options) ∧
    (∀ (bundle : Bundle) (before after : List Entry), ∃ left right, ∀ entry : Entry,
      (bundle.withEntries (before ++ entry :: after)).reports registry options =
        left ++ entry.value.reports registry options none ++ right) ∧
    (∀ (type? : Option TypeExpr) (entries : List Entry) (opened span : Span),
      registry.Undeclared type? →
        Node.reports registry options type? ⟨.object none entries opened, span⟩ =
          entries.flatMap fun entry => entry.value.reports registry options none) ∧
    (∀ (item : TypeExpr) (items : List Node) (span : Span),
      Node.reports registry options (some (.array item)) ⟨.array items, span⟩ =
        items.flatMap (Node.reports registry options (some item))) ∧
    (∀ (type? : Option TypeExpr) (enum name : String) (slots : List Slot) (items : List Node)
      (span : Span), registry.TakesVariant type? enum name (.tuple slots) →
        slots.length = items.length →
        Node.reports registry options type? ⟨.variant enum name (.tuple items), span⟩ =
          (slots.zip items).flatMap fun pair =>
            pair.2.reports registry options (some pair.1.type)) ∧
    (∀ (type? : Option TypeExpr) (enum name : String) (fields : List Field) (entries : List Entry)
      (span : Span), registry.TakesVariant type? enum name (.fields fields) →
        let declared : OwnedFields := ⟨"variant " ++ Value.variantPath enum name, fields⟩
        Node.reports registry options type? ⟨.variant enum name (.fields entries), span⟩ =
          declared.missing entries span ++
            entries.flatMap (Entry.reports registry options declared)) ∧
    ∀ (type? : Option TypeExpr) (typeName : Option String) (declared : OwnedFields)
      (entries : List Entry) (opened span : Span), registry.TakesObject type? typeName declared →
        Node.reports registry options type? ⟨.object typeName entries opened, span⟩ =
          declared.missing entries opened ++
            entries.flatMap (Entry.reports registry options declared) := by
  refine ⟨fun bundle => Bundle.reports_eq, fun bundle entry => ?_, fun bundle before after => ?_,
    fun bundle before after => ?_, fun type? entries opened span undeclared => ?_,
    fun item items span => ?_, fun type? enum name slots items span takes arity => ?_,
    fun type? enum name fields entries span takes => ?_,
    fun type? typeName declared entries opened span takes => ?_⟩
  · rw [Bundle.reports_eq]
    simp [Bundle.withEntries]
  · rw [Bundle.reports_eq, Bundle.reports_eq]
    simp [Bundle.withEntries, ← List.append_assoc]
  · refine ⟨registry.unresolved ++ before.flatMap fun entry =>
      entry.value.reports registry options none, after.flatMap fun entry =>
      entry.value.reports registry options none, fun entry => ?_⟩
    rw [Bundle.reports_eq]
    simp [Bundle.withEntries]
  · rw [Node.reports, Node.check, undeclared.demand, Form.errors_check_object]
    rfl
  · rw [Node.reports, Node.check, Registry.demand, Form.check]
    simp only [Verdict.errors_map, Node.errors_checkAll]
  · have hFits : (Payload.tuple slots : Payload Slot Field).fits
        (.tuple items : Payload Node Entry) = true := by
      simpa [Payload.fits] using arity
    rw [Node.reports, Node.check, Form.errors_check_variant, takes.plan hFits]
    exact Payload.errors_check_tuple
  · rw [Node.reports, Node.check, Form.errors_check_variant, takes.plan rfl]
    exact Payload.errors_check_fields
  · rw [Node.reports, Node.check, Form.errors_check_object, takes.plan]

end TypedConfig
