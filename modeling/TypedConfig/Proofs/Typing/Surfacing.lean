import Mathlib
import TypedConfig.Proofs.Typing.Reports
/-!
What is reported inside of values that are at fault themselves. A name that is no declaration of the
right kind, and a payload of the wrong shape, leave nothing to check the parts of a value against.
The parts are then checked as those of undeclared positions, so what is wrong with them by itself is
still reported. The exception is an object annotated with the name of an enum in a position without
a declared type: nothing is reported of its entries.
-/
namespace TypedConfig

section

variable (registry : Registry)

/-- A value cannot be checked in a position, for the name it carries or the shape of its payload,
and this is the diagnostic that says so. -/
inductive Node.Unusable : Option TypeExpr → Node → Diagnostic → Prop where
  | unknownType {type? : Option TypeExpr} {name : String} {entries : List Entry}
      {opened span : Span} (undeclared : registry.Undeclared type?)
      (unknown : registry.get? name = none) :
      Unusable type? ⟨.object (some name) entries opened, span⟩
        ⟨.typing (.unknownType name), opened⟩
  | enumAsType {type? : Option TypeExpr} {name : String} {d : Declaration}
      {variants : List Variant} {entries : List Entry} {opened span : Span}
      (undeclared : registry.Undeclared type?) (found : registry.get? name = some d)
      (body : d.body = .choice variants) :
      Unusable type? ⟨.object (some name) entries opened, span⟩
        ⟨.typing (.mismatch "a @type name" ("@enum " ++ name)), opened⟩
  | otherType {declared other : String} {d : Declaration} {fields : List Field}
      {entries : List Entry} {opened span : Span} (found : registry.get? declared = some d)
      (body : d.body = .record fields) (differs : other ≠ declared) :
      Unusable (some (.named declared)) ⟨.object (some other) entries opened, span⟩
        ⟨.typing (.mismatch declared ("object " ++ other)), span⟩
  | unknownEnum {type? : Option TypeExpr} {enum name : String} {payload : Payload Node Entry}
      {span : Span} (undeclared : registry.Undeclared type?)
      (unknown : registry.get? enum = none) :
      Unusable type? ⟨.variant enum name payload, span⟩ ⟨.typing (.unknownType enum), span⟩
  | typeAsEnum {type? : Option TypeExpr} {enum name : String} {d : Declaration}
      {fields : List Field} {payload : Payload Node Entry} {span : Span}
      (undeclared : registry.Undeclared type?) (found : registry.get? enum = some d)
      (body : d.body = .record fields) :
      Unusable type? ⟨.variant enum name payload, span⟩
        ⟨.typing (.mismatch "an @enum name" ("@type " ++ enum)), span⟩
  | unknownVariant {type? : Option TypeExpr} {enum name : String} {d : Declaration}
      {variants : List Variant} {payload : Payload Node Entry} {span : Span}
      (found : registry.get? enum = some d) (body : d.body = .choice variants)
      (position : registry.Undeclared type? ∨ type? = some (.named enum))
      (missing : variants.find? (·.name = name) = none) :
      Unusable type? ⟨.variant enum name payload, span⟩
        ⟨.typing (.unknownVariant enum name), span⟩
  | wrongShape {type? : Option TypeExpr} {enum name : String} {shape : Payload Slot Field}
      {payload : Payload Node Entry} {span : Span}
      (takes : registry.TakesVariant type? enum name shape) (misfit : shape.fits payload = false) :
      Unusable type? ⟨.variant enum name payload, span⟩
        ⟨.typing (.shapeMismatch (Value.variantPath enum name) shape.describe payload.describe),
          span⟩
  | otherEnum {declared enum name : String} {d : Declaration} {variants : List Variant}
      {payload : Payload Node Entry} {span : Span} (found : registry.get? declared = some d)
      (body : d.body = .choice variants) (differs : enum ≠ declared) :
      Unusable (some (.named declared)) ⟨.variant enum name payload, span⟩
        ⟨.typing (.mismatch declared ("enum literal " ++ enum ++ "." ++ name)), span⟩

/-- An object in a position without a declared type has the name of an enum as annotation. -/
def Node.NamesEnum (type? : Option TypeExpr) (node : Node) : Prop :=
  registry.Undeclared type? ∧ ∃ name entries opened d variants,
    node.form = .object (some name) entries opened ∧ registry.get? name = some d ∧
      d.body = .choice variants

/-! ### Positions that the checker comes to -/

/-- The position that declared fields give to the value of an entry. The null of an optional field
is not checked, and a key that is no field leaves a position without a declared type. -/
inductive Entry.PutBy (fields : List Field) (entry : Entry) : Option TypeExpr → Prop where
  | field {field : Field} (found : fields.find? (·.name = entry.key) = some field)
      (checked : ¬(field.optional = true ∧ entry.value.isNull = true)) :
      PutBy fields entry (some field.type)
  | unknown (missing : fields.find? (·.name = entry.key) = none) : PutBy fields entry none

/-- From a value in a position, the checker comes to a part of it in a position of its own. -/
inductive Node.LeadsTo : Option TypeExpr → Node → Option TypeExpr → Node → Prop where
  | item {type : TypeExpr} {items : List Node} {part : Node} {span : Span} (mem : part ∈ items) :
      LeadsTo (some (.array type)) ⟨.array items, span⟩ (some type) part
  | anyItem {type? : Option TypeExpr} {items : List Node} {part : Node} {span : Span}
      (undeclared : registry.Undeclared type?) (mem : part ∈ items) :
      LeadsTo type? ⟨.array items, span⟩ none part
  | anyEntry {type? : Option TypeExpr} {entries : List Entry} {entry : Entry} {opened span : Span}
      (undeclared : registry.Undeclared type?) (mem : entry ∈ entries) :
      LeadsTo type? ⟨.object none entries opened, span⟩ none entry.value
  | entry {type? own? : Option TypeExpr} {typeName : Option String} {declared : OwnedFields}
      {entries : List Entry} {entry : Entry} {opened span : Span}
      (takes : registry.TakesObject type? typeName declared) (mem : entry ∈ entries)
      (put : entry.PutBy declared.fields own?) :
      LeadsTo type? ⟨.object typeName entries opened, span⟩ own? entry.value
  | slot {type? : Option TypeExpr} {enum name : String} {slots : List Slot} {items : List Node}
      {slot : Slot} {part : Node} {span : Span}
      (takes : registry.TakesVariant type? enum name (.tuple slots))
      (arity : slots.length = items.length) (mem : (slot, part) ∈ slots.zip items) :
      LeadsTo type? ⟨.variant enum name (.tuple items), span⟩ (some slot.type) part
  | field {type? own? : Option TypeExpr} {enum name : String} {fields : List Field}
      {entries : List Entry} {entry : Entry} {span : Span}
      (takes : registry.TakesVariant type? enum name (.fields fields)) (mem : entry ∈ entries)
      (put : entry.PutBy fields own?) :
      LeadsTo type? ⟨.variant enum name (.fields entries), span⟩ own? entry.value
  | unusable {type? : Option TypeExpr} {node part : Node} {d : Diagnostic}
      (unusable : Node.Unusable registry type? node d)
      (walked : ¬Node.NamesEnum registry type? node)
      (mem : part ∈ node.form.parts) : LeadsTo type? node none part

/-- The checker comes to a value of a bundle in a position. -/
inductive Bundle.Visits (bundle : Bundle) : Option TypeExpr → Node → Prop where
  | root {entry : Entry} (mem : entry ∈ bundle.root.entries) : Visits bundle none entry.value
  | part {type? own? : Option TypeExpr} {node part : Node} (prior : Visits bundle type? node)
      (last : Node.LeadsTo registry type? node own? part) : Visits bundle own? part

/-- An extended literal stands in a value of an undeclared position, with no declared one on the way
to it: only arrays, objects without an annotation, and values that cannot be checked themselves. -/
inductive Node.Bears (kind : Extended) (raw : String) (span : Span) : Node → Prop where
  | here : Bears kind raw span ⟨.extended kind raw, span⟩
  | item {items : List Node} {part : Node} {place : Span} (mem : part ∈ items)
      (inner : Bears kind raw span part) : Bears kind raw span ⟨.array items, place⟩
  | entry {entries : List Entry} {entry : Entry} {opened place : Span} (mem : entry ∈ entries)
      (inner : Bears kind raw span entry.value) :
      Bears kind raw span ⟨.object none entries opened, place⟩
  | unusable {node part : Node} {d : Diagnostic} (unusable : Node.Unusable registry none node d)
      (walked : ¬Node.NamesEnum registry none node) (mem : part ∈ node.form.parts)
      (inner : Bears kind raw span part) : Bears kind raw span node

end

variable {registry : Registry} {options : Options}

/-! ### Reports on values at fault -/

/-- An alternative of a declared enum is looked up there, in a position of the enum as in one that
is not declared. -/
theorem Registry.variantPlan_eq {type? : Option TypeExpr} {enum : String} {d : Declaration}
    {variants : List Variant} (found : registry.get? enum = some d)
    (body : d.body = .choice variants)
    (position : registry.Undeclared type? ∨ type? = some (.named enum)) (name : String)
    (payload : Payload Node Entry) (span : Span) :
    (registry.demand type?).variantPlan registry enum name payload span =
      TypedConfig.variantPlan enum variants name payload span := by
  rcases position with hUndeclared | rfl
  · rw [hUndeclared.demand]
    simp [Demand.variantPlan, found, body]
  · rw [demand_choice found body]
    simp [Demand.variantPlan]

namespace Node

variable {type? own? : Option TypeExpr} {node part : Node} {d : Diagnostic}

/-- An object of which nothing is declared. -/
theorem reports_object_undeclared {typeName : Option String} {entries : List Entry}
    {opened span : Span} {faults : List Diagnostic}
    (plan : (registry.demand type?).objectPlan registry typeName opened span = .undeclared faults) :
    reports registry options type? ⟨.object typeName entries opened, span⟩ =
      faults ++ (entries.map Entry.value).flatMap (reports registry options none) := by
  rw [reports, check, Form.errors_check_object, plan, List.flatMap_map]

/-- An alternative of which nothing is declared. -/
theorem reports_variant_undeclared {enum name : String} {payload : Payload Node Entry}
    {span : Span} {faults : List Diagnostic}
    (plan : (registry.demand type?).variantPlan registry enum name payload span =
      .undeclared faults) :
    reports registry options type? ⟨.variant enum name payload, span⟩ =
      faults ++ payload.parts.flatMap (reports registry options none) := by
  rw [reports, check, Form.errors_check_variant, plan]

theorem reports_object_skipped {typeName : Option String} {entries : List Entry}
    {opened span : Span} {fault : Diagnostic}
    (plan : (registry.demand type?).objectPlan registry typeName opened span = .skipped fault) :
    reports registry options type? ⟨.object typeName entries opened, span⟩ = [fault] := by
  rw [reports, check, Form.errors_check_object, plan]

/-- Nothing is reported inside of an object that has the name of an enum as annotation. -/
theorem NamesEnum.reports (names : node.NamesEnum registry type?) :
    ∃ fault, node.reports registry options type? = [fault] := by
  obtain ⟨form, span⟩ := node
  obtain ⟨hUndeclared, name, entries, opened, d, variants, rfl, found, body⟩ := names
  have hPlan : (registry.demand type?).objectPlan registry (some name) opened span =
      .skipped ⟨.typing (.mismatch "a @type name" ("@enum " ++ name)), opened⟩ := by
    rw [hUndeclared.demand]
    simp [Demand.objectPlan, found, body]
  exact ⟨_, reports_object_skipped hPlan⟩

/-- What makes a value unusable is reported, and then what is wrong with its parts as those of
undeclared positions; but not the latter if the value has the name of an enum as annotation. -/
theorem Unusable.reports (unusable : node.Unusable registry type? d) :
    node.NamesEnum registry type? ∧ node.reports registry options type? = [d] ∨
      node.reports registry options type? =
        [d] ++ node.form.parts.flatMap (Node.reports registry options none) := by
  -- of all plans for a value at fault, only that for the name of an enum skips the parts
  cases unusable with
  | unknownType undeclared unknown =>
      right
      apply reports_object_undeclared
      rw [undeclared.demand]
      simp [Demand.objectPlan, unknown]
  | enumAsType undeclared found body =>
      left
      apply And.intro ⟨undeclared, _, _, _, _, _, rfl, found, body⟩
      apply reports_object_skipped
      rw [undeclared.demand]
      simp [Demand.objectPlan, found, body]
  | otherType found body differs =>
      right
      apply reports_object_undeclared
      rw [Registry.demand_record found body]
      simp [Demand.objectPlan, differs, Demand.mismatch, Demand.text, Form.describe]
  | unknownEnum undeclared unknown =>
      right
      apply reports_variant_undeclared
      rw [undeclared.demand]
      simp [Demand.variantPlan, unknown]
  | typeAsEnum undeclared found body =>
      right
      apply reports_variant_undeclared
      rw [undeclared.demand]
      simp [Demand.variantPlan, found, body]
  | unknownVariant found body position missing =>
      right
      apply reports_variant_undeclared
      rw [Registry.variantPlan_eq found body position]
      simp [TypedConfig.variantPlan, missing]
  | wrongShape takes misfit =>
      right
      apply reports_variant_undeclared
      cases takes with
      | intro found body alternative position =>
          rw [Registry.variantPlan_eq found body position]
          simp [TypedConfig.variantPlan, alternative, misfit]
  | otherEnum found body differs =>
      right
      apply reports_variant_undeclared
      rw [Registry.demand_choice found body]
      simp [Demand.variantPlan, differs, Demand.mismatch, Demand.text, Form.describe]

/-- What makes a value unusable is reported in any case. -/
theorem Unusable.mem_reports (unusable : node.Unusable registry type? d) :
    d ∈ node.reports registry options type? := by
  rcases unusable.reports with ⟨-, hReports⟩ | hReports
  · rw [hReports]
    exact List.mem_singleton_self d
  · rw [hReports]
    exact List.mem_cons_self

/-! ### Reports on parts -/

end Node

/-- What is reported of an item is reported of the array, whatever its other items are. -/
theorem ItemClass.subset_errors_allFrom {fixed : Option ItemClass} {place : Span}
    {v : Verdict Value} {items : List (Span × Verdict Value)} (mem : (place, v) ∈ items) :
    v.errors ⊆ (allFrom fixed items).errors := by
  induction items generalizing fixed with
  | nil => cases mem
  | cons item items ih =>
      obtain ⟨place', w⟩ := item
      intro d hReport
      rw [allFrom, Verdict.errors_both]
      rcases List.mem_cons.1 mem with hHere | hLater
      · cases hHere
        exact List.mem_append_left _ (List.mem_append_left _ hReport)
      · exact List.mem_append_right _ (ih hLater hReport)

theorem Entry.PutBy.subset_reports {declared : OwnedFields} {entry : Entry}
    {own? : Option TypeExpr} (put : entry.PutBy declared.fields own?) :
    entry.value.reports registry options own? ⊆ entry.reports registry options declared := by
  intro d hReport
  cases put with
  | field found checked =>
      have hChecked : ¬(_ && _) = true := fun h => checked (Bool.and_eq_true_iff.1 h)
      rw [reports, found]
      simpa only [if_neg hChecked] using hReport
  | unknown missing =>
      rw [reports, missing]
      exact List.mem_cons_of_mem _ hReport

namespace Node

variable {type? own? : Option TypeExpr} {node part : Node} {d : Diagnostic}

/-- What is reported of a part that the checker comes to is reported of the whole. -/
theorem LeadsTo.subset_reports (leads : node.LeadsTo registry type? own? part) :
    part.reports registry options own? ⊆ node.reports registry options type? := by
  intro d hReport
  cases leads with
  | item mem =>
      rw [Node.reports, Node.check, Registry.demand, Form.check]
      simp only [Verdict.errors_map, Node.errors_checkAll]
      exact List.mem_flatMap_of_mem mem hReport
  | @anyItem _ items _ span undeclared mem =>
      -- items are reported on before their classes are compared
      have hPair : (part.span, part.check registry options none) ∈
          items.map fun item => (item.span, item.check registry options none) :=
        List.mem_map_of_mem mem
      rw [Node.reports, Node.check, undeclared.demand, Form.check]
      simp only [Verdict.errors_map, Node.checkAll_eq_map, List.zip_map']
      exact ItemClass.subset_errors_allFrom hPair hReport
  | @anyEntry _ entries entry opened span undeclared mem =>
      have hPlan :
          (registry.demand type?).objectPlan registry none opened span = .undeclared [] := by
        rw [undeclared.demand]
        rfl
      rw [reports_object_undeclared hPlan]
      exact List.mem_flatMap_of_mem (List.mem_map_of_mem mem) hReport
  | entry takes mem put =>
      rw [Node.reports, Node.check, Form.errors_check_object, takes.plan]
      exact List.mem_append_right _ (List.mem_flatMap_of_mem mem (put.subset_reports hReport))
  | @slot _ enum name slots items slot _ span takes arity mem =>
      have hFits : (Payload.tuple slots : Payload Slot Field).fits
          (.tuple items : Payload Node Entry) = true := beq_iff_eq.2 arity
      have hPart : d ∈ (slots.zip items).flatMap fun pair =>
          pair.2.reports registry options (some pair.1.type) := List.mem_flatMap_of_mem mem hReport
      rw [Node.reports, Node.check, Form.errors_check_variant, takes.plan hFits]
      show d ∈ ((Payload.tuple items).check registry options (Value.variantPath enum name) span
        (some (.tuple slots))).errors
      rwa [Payload.errors_check_tuple]
  | @field _ _ enum name fields entries entry span takes mem put =>
      have hEntry : d ∈ entries.flatMap (Entry.reports registry options
          ⟨"variant " ++ Value.variantPath enum name, fields⟩) :=
        List.mem_flatMap_of_mem mem (put.subset_reports hReport)
      rw [Node.reports, Node.check, Form.errors_check_variant, takes.plan rfl]
      show d ∈ ((Payload.fields entries).check registry options (Value.variantPath enum name) span
        (some (.fields fields))).errors
      rw [Payload.errors_check_fields]
      exact List.mem_append_right _ hEntry
  | unusable unusable walked mem =>
      rcases unusable.reports with ⟨hNames, -⟩ | hReports
      · exact absurd hNames walked
      · rw [hReports]
        exact List.mem_append_right _ (List.mem_flatMap_of_mem mem hReport)

theorem Bears.mem_reports {kind : Extended} {raw : String} {span : Span} {fault : TypeFault}
    (bears : node.Bears registry kind raw span)
    (rejected : options.denote kind raw = .error fault) :
    ⟨.typing fault, span⟩ ∈ node.reports registry options none := by
  have hUndeclared : registry.Undeclared none := registry.undeclared_none
  induction bears with
  | here =>
      have hCheck : Node.check registry options none ⟨.extended kind raw, span⟩ =
          options.checkExtended kind raw span := rfl
      rw [Node.reports, hCheck, Options.checkExtended, rejected]
      exact List.mem_singleton_self _
  | item mem inner ih => exact (LeadsTo.anyItem hUndeclared mem).subset_reports ih
  | entry mem inner ih => exact (LeadsTo.anyEntry hUndeclared mem).subset_reports ih
  | unusable unusable walked mem inner ih =>
      exact (LeadsTo.unusable unusable walked mem).subset_reports ih

end Node

/-- What is reported of a value that the checker comes to is reported of the bundle. -/
theorem Bundle.Visits.subset_reports {bundle : Bundle} {type? : Option TypeExpr} {node : Node}
    (visits : bundle.Visits registry type? node) :
    node.reports registry options type? ⊆ bundle.reports registry options := by
  induction visits with
  | root mem =>
      intro d hReport
      rw [Bundle.reports_eq]
      exact List.mem_append_right _ (List.mem_flatMap_of_mem mem hReport)
  | part prior last ih =>
      intro d hReport
      exact ih (last.subset_reports hReport)

/-- A value that cannot be checked does not hide what is inside of it. What makes it unusable is
reported, and so is every extended literal in its parts whose text does not denote a value, if there
are only undeclared positions between them. But of an object in an undeclared position that has the
name of an enum as annotation, nothing else is reported at all. -/
theorem Bundle.reports_of_unusable (registry : Registry) (options : Options) (bundle : Bundle)
    {type? : Option TypeExpr} {node : Node} {d : Diagnostic}
    (visits : bundle.Visits registry type? node) (unusable : node.Unusable registry type? d) :
    d ∈ bundle.reports registry options ∧
      (¬node.NamesEnum registry type? → ∀ part ∈ node.form.parts, ∀ kind raw span fault,
        part.Bears registry kind raw span → options.denote kind raw = .error fault →
          ⟨.typing fault, span⟩ ∈ bundle.reports registry options) ∧
      (node.NamesEnum registry type? → node.reports registry options type? = [d]) := by
  refine ⟨visits.subset_reports unusable.mem_reports, ?_, ?_⟩
  · intro walked part mem kind raw span fault bears rejected
    have hLeads : node.LeadsTo registry type? none part := .unusable unusable walked mem
    exact visits.subset_reports (hLeads.subset_reports (bears.mem_reports rejected))
  · intro names
    obtain ⟨fault, hReports⟩ : ∃ fault, node.reports registry options type? = [fault] :=
      names.reports
    have hMem : d ∈ node.reports registry options type? := unusable.mem_reports
    rw [hReports] at hMem
    rw [hReports, List.mem_singleton.1 hMem]

/-- The annotation is no declared name, and the address inside is reported all the same. -/
theorem Bundle.reports_inside_object_of_unknown_type :
    let literal : Node := ⟨.extended .url "ftp://x", ⟨"main", 1, 18⟩⟩
    let node : Node := ⟨.object (some "Missing") [⟨"u", ⟨"main", 1, 15⟩, literal⟩] ⟨"main", 1, 13⟩,
      ⟨"main", 1, 5⟩⟩
    let bundle : Bundle := ⟨⟨"main"⟩, [⟨"main"⟩], [],
      ⟨[⟨"a", ⟨"main", 1, 2⟩, node⟩], ⟨"main", 1, 1⟩⟩⟩
    let registry : Registry := ⟨[], List.nodup_nil⟩
    bundle.Visits registry none node ∧
      node.Unusable registry none ⟨.typing (.unknownType "Missing"), ⟨"main", 1, 13⟩⟩ ∧
      ⟨.typing (.unknownType "Missing"), ⟨"main", 1, 13⟩⟩ ∈ bundle.reports registry .default ∧
      ⟨.typing (.url "ftp://x" (.scheme ['f', 't', 'p'])), ⟨"main", 1, 18⟩⟩ ∈
        bundle.reports registry .default := by
  intro literal node bundle registry
  have hEntry : (⟨"a", ⟨"main", 1, 2⟩, node⟩ : Entry) ∈ bundle.root.entries :=
    List.mem_singleton_self _
  have hVisits : bundle.Visits registry none node := Visits.root hEntry
  have hUnusable : node.Unusable registry none
      ⟨.typing (.unknownType "Missing"), ⟨"main", 1, 13⟩⟩ :=
    .unknownType registry.undeclared_none rfl
  have hWalked : ¬node.NamesEnum registry none := by
    intro names
    obtain ⟨-, name, entries, opened, d, variants, -, found, -⟩ := names
    cases found
  have hRejected : Options.default.denote .url "ftp://x" =
      .error (.url "ftp://x" (.scheme ['f', 't', 'p'])) := by
    cbv
  obtain ⟨hOwn, hInside, -⟩ := reports_of_unusable registry .default bundle hVisits hUnusable
  exact ⟨hVisits, hUnusable, hOwn,
    hInside hWalked literal (List.mem_singleton_self _) _ _ _ _ .here hRejected⟩

/-- The annotation names an enum, and the address inside is not reported. -/
theorem Bundle.enum_as_type_hides_literal :
    let source := "@enum E \x7b A \x7d \x7b a: E \x7b u: url(\"ftp://x\") \x7d \x7d"
    let literal : Node := ⟨.extended .url "ftp://x", ⟨"main", 1, 27⟩⟩
    let node : Node := ⟨.object (some "E") [⟨"u", ⟨"main", 1, 24⟩, literal⟩] ⟨"main", 1, 22⟩,
      ⟨"main", 1, 20⟩⟩
    let choice : Declaration := ⟨"E", .choice [⟨"A", .unit, ⟨"main", 1, 11⟩⟩], ⟨"main", 1, 1⟩⟩
    let bundle : Bundle := ⟨⟨"main"⟩, [⟨"main"⟩], [choice],
      ⟨[⟨"a", ⟨"main", 1, 17⟩, node⟩], ⟨"main", 1, 15⟩⟩⟩
    let registry : Registry := ⟨[choice], List.nodup_singleton _⟩
    let d : Diagnostic := ⟨.typing (.mismatch "a @type name" "@enum E"), ⟨"main", 1, 22⟩⟩
    Bundle.ofSource .empty ⟨"main"⟩ source = .ok bundle ∧
      Registry.build bundle.declarations = .ok registry ∧ bundle.Visits registry none node ∧
      node.Unusable registry none d ∧ literal ∈ node.form.parts ∧
      literal.Bears registry .url "ftp://x" ⟨"main", 1, 27⟩ ∧
      Options.default.denote .url "ftp://x" =
        .error (.url "ftp://x" (.scheme ['f', 't', 'p'])) ∧
      bundle.reports registry .default = [d] := by
  intro source literal node choice bundle registry d
  let tokens : List Token :=
    [⟨.mark .atSign, ⟨1, 1, 0⟩⟩, ⟨.word "enum", ⟨1, 2, 1⟩⟩, ⟨.word "E", ⟨1, 7, 6⟩⟩,
      ⟨.mark (.opening .brace), ⟨1, 9, 8⟩⟩, ⟨.word "A", ⟨1, 11, 10⟩⟩,
      ⟨.mark (.closing .brace), ⟨1, 13, 12⟩⟩, ⟨.mark (.opening .brace), ⟨1, 15, 14⟩⟩,
      ⟨.word "a", ⟨1, 17, 16⟩⟩, ⟨.mark .colon, ⟨1, 18, 17⟩⟩, ⟨.word "E", ⟨1, 20, 19⟩⟩,
      ⟨.mark (.opening .brace), ⟨1, 22, 21⟩⟩, ⟨.word "u", ⟨1, 24, 23⟩⟩,
      ⟨.mark .colon, ⟨1, 25, 24⟩⟩, ⟨.word "url", ⟨1, 27, 26⟩⟩,
      ⟨.mark (.opening .round), ⟨1, 30, 29⟩⟩, ⟨.quoted "ftp://x", ⟨1, 31, 30⟩⟩,
      ⟨.mark (.closing .round), ⟨1, 40, 39⟩⟩, ⟨.mark (.closing .brace), ⟨1, 42, 41⟩⟩,
      ⟨.mark (.closing .brace), ⟨1, 44, 43⟩⟩, ⟨.endOfInput, ⟨1, 45, 44⟩⟩]
  have hScan : Token.scan "main" source = .ok tokens := by cbv
  have hDocument : Document.ofTokens "main" tokens = .ok ⟨[], [choice], bundle.root⟩ := by
    with_unfolding_all rfl
  have hResolve : Bundle.resolve .empty ⟨"main"⟩ [] ⟨[], [choice], bundle.root⟩ = .ok bundle := by
    cbv
  have hReads : Bundle.ofSource .empty ⟨"main"⟩ source = .ok bundle := by
    rw [Bundle.ofSource, Document.parse, hScan]
    show Document.ofTokens "main" tokens >>= Bundle.resolve .empty ⟨"main"⟩ [] = .ok bundle
    rw [hDocument]
    exact hResolve
  have hBuild : Registry.build bundle.declarations = .ok registry := by cbv
  have hRejected : Options.default.denote .url "ftp://x" =
      .error (.url "ftp://x" (.scheme ['f', 't', 'p'])) := by
    cbv
  have hReports : bundle.reports registry .default = [d] := by cbv
  have hEntry : (⟨"a", ⟨"main", 1, 17⟩, node⟩ : Entry) ∈ bundle.root.entries :=
    List.mem_singleton_self _
  exact ⟨hReads, hBuild, Visits.root hEntry, .enumAsType registry.undeclared_none rfl rfl,
    List.mem_singleton_self _, .here, hRejected, hReports⟩

end TypedConfig
