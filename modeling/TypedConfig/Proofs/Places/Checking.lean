import TypedConfig.Proofs.Places
import TypedConfig.Proofs.Typing.Reports
/-!
The checker keeps places: what it reports of a value points at a place in that value, and what it
reports of declarations at one in those. By induction on the written value, with the reports on its
parts as the checker puts them together.
-/
namespace TypedConfig

section

variable {registry : Registry} {options : Options} {P : Span → Prop}

/-! ### Faults of the value itself -/

/-- What a plan reports of the value itself. -/
def Plan.faults {α : Type} : Plan α → List Diagnostic
  | declared _ => []
  | undeclared faults => faults
  | skipped fault => [fault]

theorem Diagnostic.within_of_typing {fault : TypeFault} {span : Span} (here : P span) :
    ∀ d ∈ [(⟨.typing fault, span⟩ : Diagnostic)], d.Within "validate" P :=
  List.forall_mem_singleton.2 ⟨rfl, here, List.forall_mem_nil _⟩

/-- An object itself is at fault where it begins or where its brace stands. -/
theorem Demand.objectPlan_within {demand : Demand} {typeName : Option String} {opened span : Span}
    (hOpened : P opened) (here : P span) :
    ∀ d ∈ (demand.objectPlan registry typeName opened span).faults, d.Within "validate" P := by
  rw [objectPlan.eq_def]
  dsimp only
  split
  · exact List.forall_mem_nil _
  · split
    · exact List.forall_mem_nil _
    · exact Diagnostic.within_of_typing hOpened
    · exact Diagnostic.within_of_typing hOpened
  · exact List.forall_mem_nil _
  · split
    · exact List.forall_mem_nil _
    · exact Diagnostic.within_of_typing here
  · exact Diagnostic.within_of_typing here

theorem variantPlan_within {enum name : String} {variants : List Variant}
    {payload : Payload Node Entry} {span : Span} (here : P span) :
    ∀ d ∈ (variantPlan enum variants name payload span).faults, d.Within "validate" P := by
  rw [variantPlan]
  split
  · exact Diagnostic.within_of_typing here
  · split
    · exact List.forall_mem_nil _
    · exact Diagnostic.within_of_typing here

/-- An alternative itself is at fault where it begins. -/
theorem Demand.variantPlan_within {demand : Demand} {enum name : String}
    {payload : Payload Node Entry} {span : Span} (here : P span) :
    ∀ d ∈ (demand.variantPlan registry enum name payload span).faults, d.Within "validate" P := by
  rw [variantPlan.eq_def]
  dsimp only
  split
  · split
    · exact TypedConfig.variantPlan_within here
    · exact Diagnostic.within_of_typing here
    · exact Diagnostic.within_of_typing here
  · split
    · exact TypedConfig.variantPlan_within here
    · exact Diagnostic.within_of_typing here
  · exact Diagnostic.within_of_typing here

theorem OwnedFields.missing_within {declared : OwnedFields} {entries : List Entry} {span : Span}
    (here : P span) : ∀ d ∈ declared.missing entries span, d.Within "validate" P :=
  List.forall_mem_map.2 fun _ _ => ⟨rfl, here, List.forall_mem_nil _⟩

theorem Verdict.accept_within {α : Type} (a : α) : ∀ d ∈ (accept a).errors, d.Within "validate" P :=
  List.forall_mem_nil _

theorem Verdict.refuse_within {α : Type} {fault : TypeFault} {span : Span} (here : P span) :
    ∀ d ∈ (refuse ⟨.typing fault, span⟩ : Verdict α).errors, d.Within "validate" P :=
  Diagnostic.within_of_typing here

theorem Options.checkExtended_within {kind : Extended} {raw : String} {span : Span}
    (here : P span) :
    ∀ d ∈ (options.checkExtended kind raw span).errors, d.Within "validate" P := by
  rw [checkExtended]
  split
  · exact Verdict.accept_within _
  · exact Verdict.refuse_within here

theorem Demand.checkScalar_within {demand : Demand} {form : Form} {span : Span} (here : P span) :
    ∀ d ∈ (demand.checkScalar options form span).errors, d.Within "validate" P := by
  rcases demand.checkScalar_cases form span with ⟨_, hRun⟩ | ⟨_, _, hRun⟩ | hRun <;> rw [hRun]
  · exact Verdict.accept_within _
  · exact Options.checkExtended_within here
  · exact Verdict.refuse_within here

/-! ### Parts -/

/-- What is reported of a value in any position points at places that are as told. -/
def Node.ReportsIn (registry : Registry) (options : Options) (P : Span → Prop) (node : Node) :
    Prop :=
  ∀ type?, ∀ d ∈ node.reports registry options type?, d.Within "validate" P

theorem Diagnostic.within_of_flatMap {α : Type} {as : List α} {reports : α → List Diagnostic}
    (each : ∀ a ∈ as, ∀ d ∈ reports a, d.Within "validate" P) :
    ∀ d ∈ as.flatMap reports, d.Within "validate" P := by
  intro d mem
  obtain ⟨a, hA, hD⟩ := List.mem_flatMap.1 mem
  exact each a hA d hD

theorem Entry.reports_within {declared : OwnedFields} {entry : Entry} (here : P entry.keySpan)
    (value : entry.value.ReportsIn registry options P) :
    ∀ d ∈ entry.reports registry options declared, d.Within "validate" P := by
  rw [reports]
  split
  · split
    · exact List.forall_mem_nil _
    · exact value _
  · exact List.forall_mem_cons.2 ⟨⟨rfl, here, List.forall_mem_nil _⟩, value none⟩

/-- The items of an array in an undeclared position are at fault where they stand. -/
theorem ItemClass.allFrom_within {fixed : Option ItemClass} {items : List (Span × Verdict Value)}
    (each : ∀ item ∈ items, P item.1 ∧ ∀ d ∈ item.2.errors, d.Within "validate" P) :
    ∀ d ∈ (allFrom fixed items).errors, d.Within "validate" P := by
  induction items generalizing fixed with
  | nil => exact List.forall_mem_nil _
  | cons item items ih =>
      obtain ⟨span, v⟩ := item
      obtain ⟨⟨hSpan, hItem⟩, hItems⟩ := List.forall_mem_cons.1 each
      have hFaults : ∀ d ∈ faults fixed v.value? span, d.Within "validate" P := by
        rw [faults.eq_def]
        split
        · split
          · exact List.forall_mem_nil _
          · exact Diagnostic.within_of_typing hSpan
        · exact List.forall_mem_nil _
      rw [allFrom, Verdict.errors_both]
      exact List.forall_mem_append.2 ⟨List.forall_mem_append.2 ⟨hItem, hFaults⟩, ih hItems⟩

theorem Entry.reports_within_of_each {declared : OwnedFields} {entries : List Entry}
    (keys : ∀ s ∈ entries.map Entry.keySpan, P s)
    (values : ∀ part ∈ entries.map Entry.value, part.ReportsIn registry options P) :
    ∀ d ∈ entries.flatMap (Entry.reports registry options declared), d.Within "validate" P :=
  Diagnostic.within_of_flatMap fun entry mem =>
    entry.reports_within (keys _ (List.mem_map_of_mem mem)) (values _ (List.mem_map_of_mem mem))

theorem Entry.values_within_of_each {entries : List Entry}
    (values : ∀ part ∈ entries.map Entry.value, part.ReportsIn registry options P) :
    ∀ d ∈ entries.flatMap fun entry => entry.value.reports registry options none,
      d.Within "validate" P :=
  Diagnostic.within_of_flatMap fun _ mem => values _ (List.mem_map_of_mem mem) none

theorem Payload.check_within {path enum name : String} {span : Span} {shape : Payload Slot Field}
    {payload : Payload Node Entry} (here : P span)
    (own : ∀ s ∈ (Form.variant enum name payload).places, P s)
    (parts : ∀ part ∈ payload.parts, part.ReportsIn registry options P) :
    ∀ d ∈ (payload.check registry options path span (some shape)).errors,
      d.Within "validate" P := by
  cases payload with
  | unit => exact Verdict.accept_within _
  | tuple items =>
      rw [Payload.check.eq_def]
      dsimp only
      split
      · rw [Verdict.errors_map, Node.errors_checkSlots]
        exact Diagnostic.within_of_flatMap fun pair mem =>
          parts pair.2 (List.of_mem_zip mem).2 _
      · rw [Verdict.errors_map, Node.errors_checkAll]
        exact Diagnostic.within_of_flatMap fun node mem => parts node mem none
  | fields entries =>
      rw [Payload.check.eq_def]
      dsimp only
      split
      · rw [Verdict.errors_map, Verdict.errors_after, Entry.errors_checkAll_declared]
        exact List.forall_mem_append.2 ⟨OwnedFields.missing_within here,
          Entry.reports_within_of_each own parts⟩
      · rw [Verdict.errors_map, Entry.errors_checkAll]
        exact Entry.values_within_of_each parts

/-! ### Values -/

namespace Form

theorem check_array_within {demand : Demand} {items : List Node} {span : Span} (here : P span)
    (spans : ∀ item ∈ items, P item.span)
    (parts : ∀ item ∈ items, item.ReportsIn registry options P) :
    ∀ d ∈ ((Form.array items).check registry options demand span).errors,
      d.Within "validate" P := by
  rw [Form.check.eq_def]
  dsimp only
  split
  · rw [Verdict.errors_map, Node.checkAll_eq_map, List.zip_map']
    refine ItemClass.allFrom_within (List.forall_mem_map.2 fun item mem => ?_)
    exact ⟨spans item mem, parts item mem none⟩
  · rw [Verdict.errors_map, Node.errors_checkAll]
    exact Diagnostic.within_of_flatMap fun item mem => parts item mem _
  · exact Verdict.refuse_within here

theorem check_object_within {demand : Demand} {typeName : Option String} {entries : List Entry}
    {opened span : Span} (here : P span)
    (own : ∀ s ∈ (Form.object typeName entries opened).places, P s)
    (parts : ∀ part ∈ entries.map Entry.value, part.ReportsIn registry options P) :
    ∀ d ∈ ((Form.object typeName entries opened).check registry options demand span).errors,
      d.Within "validate" P := by
  obtain ⟨hOpened, hKeys⟩ := List.forall_mem_cons.1 own
  have hPlan : ∀ d ∈ (demand.objectPlan registry typeName opened span).faults,
      d.Within "validate" P := Demand.objectPlan_within hOpened here
  rw [errors_check_object]
  cases hPlanEq : demand.objectPlan registry typeName opened span with
  | declared declared =>
      exact List.forall_mem_append.2 ⟨OwnedFields.missing_within hOpened,
        Entry.reports_within_of_each hKeys parts⟩
  | undeclared faults =>
      rw [hPlanEq] at hPlan
      exact List.forall_mem_append.2 ⟨hPlan, Entry.values_within_of_each parts⟩
  | skipped fault =>
      rw [hPlanEq] at hPlan
      exact hPlan

theorem check_variant_within {demand : Demand} {enum name : String} {payload : Payload Node Entry}
    {span : Span} (here : P span) (own : ∀ s ∈ (Form.variant enum name payload).places, P s)
    (parts : ∀ part ∈ payload.parts, part.ReportsIn registry options P) :
    ∀ d ∈ ((Form.variant enum name payload).check registry options demand span).errors,
      d.Within "validate" P := by
  have hPlan : ∀ d ∈ (demand.variantPlan registry enum name payload span).faults,
      d.Within "validate" P := Demand.variantPlan_within here
  rw [errors_check_variant]
  cases hPlanEq : demand.variantPlan registry enum name payload span with
  | declared shape => exact Payload.check_within here own parts
  | undeclared faults =>
      rw [hPlanEq] at hPlan
      exact List.forall_mem_append.2 ⟨hPlan,
        Diagnostic.within_of_flatMap fun part mem => parts part mem none⟩
  | skipped fault =>
      rw [hPlanEq] at hPlan
      exact hPlan

end Form

theorem Node.Placed.span {node : Node} (placed : node.Placed P) : P node.span := by
  cases placed with
  | intro here => exact here

/-- What is reported of a value points at places in it. -/
theorem Node.reports_within {node : Node} (placed : node.Placed P) :
    node.ReportsIn registry options P := by
  induction node using Node.induct with
  | step form span ih =>
      cases placed with
      | intro here own placed =>
          have hParts : ∀ part ∈ form.parts, part.ReportsIn registry options P :=
            fun part mem => ih part mem (placed part mem)
          intro type?
          rw [reports, check]
          cases form with
          | array items =>
              exact Form.check_array_within here (fun item mem => (placed item mem).span) hParts
          | object typeName entries opened => exact Form.check_object_within here own hParts
          | variant enum name payload => exact Form.check_variant_within here own hParts
          | _ =>
              simp only [Form.check]
              exact Demand.checkScalar_within here

/-! ### Declarations -/

theorem Registry.unresolvedIn_within {type : TypeExpr} {span : Span} (here : P span) :
    ∀ d ∈ registry.unresolvedIn type span, d.Within "validate" P := by
  rw [unresolvedIn]
  split
  · split
    · exact List.forall_mem_nil _
    · exact Diagnostic.within_of_typing here
  · exact List.forall_mem_nil _

theorem Registry.unresolvedInFields_within {fields : List Field}
    (placed : ∀ s ∈ fields.map Field.span, P s) :
    ∀ d ∈ registry.unresolvedInFields fields, d.Within "validate" P :=
  Diagnostic.within_of_flatMap fun _ mem => unresolvedIn_within (placed _ (List.mem_map_of_mem mem))

/-- What is reported of declarations points at places in them. -/
theorem Registry.unresolved_within (placed : ∀ d ∈ registry.declarations, d.Placed P) :
    ∀ d ∈ registry.unresolved, d.Within "validate" P := by
  refine Diagnostic.within_of_flatMap fun declaration mem => ?_
  have hPlaces := (List.forall_mem_cons.1 (placed declaration mem)).2
  cases hBody : declaration.body with
  | record fields =>
      rw [hBody] at hPlaces
      exact unresolvedInFields_within hPlaces
  | choice variants =>
      rw [hBody] at hPlaces
      refine Diagnostic.within_of_flatMap fun v hVariant => ?_
      have hShape : ∀ s ∈ v.shape.places, P s := fun s hSpan =>
        hPlaces s (List.mem_flatMap.2 ⟨v, hVariant, List.mem_cons_of_mem _ hSpan⟩)
      cases hPayload : v.shape with
      | unit => exact List.forall_mem_nil _
      | tuple slots =>
          rw [hPayload] at hShape
          exact Diagnostic.within_of_flatMap fun _ hSlot =>
            unresolvedIn_within (hShape _ (List.mem_map_of_mem hSlot))
      | fields fields =>
          rw [hPayload] at hShape
          exact unresolvedInFields_within hShape

/-- What is reported of a bundle points at places in its entries and in the declarations. -/
theorem Bundle.reports_within {bundle : Bundle}
    (declarations : ∀ d ∈ registry.declarations, d.Placed P)
    (entries : ∀ entry ∈ bundle.root.entries, entry.Placed P) :
    ∀ d ∈ bundle.reports registry options, d.Within "validate" P := by
  rw [Bundle.reports_eq]
  refine List.forall_mem_append.2 ⟨Registry.unresolved_within declarations, ?_⟩
  exact Diagnostic.within_of_flatMap fun entry mem => Node.reports_within (entries entry mem).2 none

end

end TypedConfig
