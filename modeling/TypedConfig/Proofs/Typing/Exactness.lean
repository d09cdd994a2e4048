import TypedConfig.Elaboration
import TypedConfig.Proofs.Typing.Parts
/-!
The checker decides the typing of written values, exactly: it accepts a value for a position if and
only if the value fits the position, and then gives what the value becomes.
-/
namespace TypedConfig

variable {registry : Registry} {options : Options}

attribute [local simp] Form.check Demand.checkScalar Demand.objectPlan Demand.variantPlan
  TypedConfig.variantPlan

namespace Form

/-- An object that is checked against declared fields. -/
theorem check_object_iff (declared : OwnedFields) {demand : Demand} {span opened : Span}
    {typeName : Option String} {entries : List Entry} {value : Value}
    (decided : ∀ entry ∈ entries, entry.value.Decided registry options)
    (plan : demand.objectPlan registry typeName opened span = .declared declared) :
    (Form.object typeName entries opened).check registry options demand span = .accept value ↔
      ∃ values, value = .object typeName values ∧
        Entry.Fill registry options declared.fields entries values := by
  simp only [Form.check, plan, Verdict.map_eq_accept_iff, Entry.fill_iff decided]
  constructor
  · rintro ⟨values, block, rfl⟩
    exact ⟨values, rfl, block⟩
  · rintro ⟨values, rfl, block⟩
    exact ⟨values, block, rfl⟩

/-- An alternative that is checked against a declared enum. -/
theorem check_variant_iff (variants : List Variant) {demand : Demand} {span : Span}
    {enum name : String} {payload : Payload Node Entry} {value : Value}
    (decided : ∀ part ∈ payload.parts, part.Decided registry options)
    (plan : demand.variantPlan registry enum name payload span =
      TypedConfig.variantPlan enum variants name payload span) :
    (Form.variant enum name payload).check registry options demand span = .accept value ↔
      ∃ variant carried, variants.find? (·.name = name) = some variant ∧
        value = .variant enum name carried ∧
        Payload.HasShape registry options variant.shape payload carried := by
  simp only [Form.check, plan, TypedConfig.variantPlan]
  cases variants.find? (·.name = name) with
  | none => simp
  | some variant =>
      by_cases hFits : variant.shape.fits payload = true
      · simp only [hFits, if_true, Verdict.map_eq_accept_iff,
          Payload.check_eq_accept_iff decided hFits]
        constructor
        · rintro ⟨carried, shaped, rfl⟩
          exact ⟨variant, carried, rfl, rfl, shaped⟩
        · rintro ⟨_, carried, ⟨⟩, rfl, shaped⟩
          exact ⟨carried, shaped, rfl⟩
      · simp only [hFits, if_false, Verdict.map_eq_accept_iff, Verdict.after_eq_accept_iff,
          reduceCtorEq, false_and, exists_false, Bool.false_eq_true, false_iff]
        rintro ⟨_, carried, ⟨⟩, -, shaped⟩
        exact hFits shaped.fits

theorem checkExtended_eq_accept_iff {kind : Extended} {raw : String} {span : Span} {value : Value} :
    options.checkExtended kind raw span = .accept value ↔ options.denote kind raw = .ok value := by
  rw [Options.checkExtended]
  cases options.denote kind raw <;> simp

/-- An array where nothing is demanded. -/
theorem check_array_iff {items : List Node} {span : Span} {value : Value}
    (decided : ∀ part ∈ items, part.Decided registry options) :
    (Form.array items).check registry options .anything span = .accept value ↔
      Node.Acceptable registry options ⟨.array items, span⟩ value := by
  rw [Form.check, Verdict.map_eq_accept_iff]
  simp only [Node.checkAll_eq_map, ItemClass.allFrom_eq_accept_iff, List.zip_map',
    List.forall₂_map_left_iff]
  simp only [List.forall₂_iff_zip]
  constructor
  · rintro ⟨values, ⟨⟨lengths, each⟩, c, -, hClass⟩, rfl⟩
    refine .array lengths (fun node value mem => ?_) ⟨c, hClass⟩
    exact (decided node (List.of_mem_zip mem).1 none value).1 (each mem)
  · intro acceptable
    cases acceptable with
    | @array _ values _ lengths each homogeneous =>
        obtain ⟨c, hClass⟩ := homogeneous
        refine ⟨values, ⟨⟨lengths, fun {node value} mem => ?_⟩, c, by simp, hClass⟩, rfl⟩
        exact (decided node (List.of_mem_zip mem).1 none value).2 (each node value mem)

/-- An object where nothing is demanded. -/
theorem check_undemanded_object_iff {typeName : Option String} {entries : List Entry}
    {opened span : Span} {value : Value}
    (decided : ∀ entry ∈ entries, entry.value.Decided registry options) :
    (Form.object typeName entries opened).check registry options .anything span = .accept value ↔
      Node.Acceptable registry options ⟨.object typeName entries opened, span⟩ value := by
  cases typeName with
  | none =>
      simp only [Form.check, Demand.objectPlan, Verdict.map_eq_accept_iff,
        Verdict.after_eq_accept_iff, true_and, Entry.checkAll_eq_accept_iff decided]
      constructor
      · rintro ⟨values, ⟨keys, each⟩, rfl⟩
        exact .object keys each
      · intro acceptable
        cases acceptable with
        | object keys each => exact ⟨_, ⟨keys, each⟩, rfl⟩
  | some name =>
      cases hFound : registry.get? name with
      | none =>
          simp only [Form.check, Demand.objectPlan, hFound, Option.map_none,
            Verdict.map_eq_accept_iff, Verdict.after_eq_accept_iff, reduceCtorEq, false_and,
            exists_false, false_iff]
          intro acceptable
          cases acceptable with
          | record found => simp [hFound] at found
      | some declaration =>
          cases hBody : declaration.body with
          | record fields =>
              rw [check_object_iff (.ofType name fields) decided
                (by simp [hFound, hBody])]
              constructor
              · rintro ⟨values, rfl, block⟩
                exact .record hFound hBody block
              · intro acceptable
                cases acceptable with
                | record found body block =>
                    obtain rfl := Option.some.inj (hFound.symm.trans found)
                    obtain rfl := Declaration.Body.record.inj (hBody.symm.trans body)
                    exact ⟨_, rfl, block⟩
          | choice variants =>
              simp only [Form.check, Demand.objectPlan, hFound, Option.map_some, hBody,
                Verdict.refuse_ne_accept, false_iff]
              intro acceptable
              cases acceptable with
              | record found body =>
                  obtain rfl := Option.some.inj (hFound.symm.trans found)
                  exact absurd (hBody.symm.trans body) (by simp)

/-- An alternative where nothing is demanded. -/
theorem check_undemanded_variant_iff {enum name : String} {payload : Payload Node Entry}
    {span : Span} {value : Value}
    (decided : ∀ part ∈ payload.parts, part.Decided registry options) :
    (Form.variant enum name payload).check registry options .anything span = .accept value ↔
      Node.Acceptable registry options ⟨.variant enum name payload, span⟩ value := by
  cases hFound : registry.get? enum with
  | none =>
      simp only [Form.check, Demand.variantPlan, hFound, Option.map_none,
        Verdict.map_eq_accept_iff, Verdict.after_eq_accept_iff, reduceCtorEq, false_and,
        exists_false, false_iff]
      intro acceptable
      cases acceptable with
      | choice found => simp [hFound] at found
  | some declaration =>
      cases hBody : declaration.body with
      | record fields =>
          simp only [Form.check, Demand.variantPlan, hFound, Option.map_some, hBody,
            Verdict.map_eq_accept_iff, Verdict.after_eq_accept_iff, reduceCtorEq, false_and,
            exists_false, false_iff]
          intro acceptable
          cases acceptable with
          | choice found body =>
              obtain rfl := Option.some.inj (hFound.symm.trans found)
              exact absurd (hBody.symm.trans body) (by simp)
      | choice variants =>
          rw [check_variant_iff variants decided
            (by simp [hFound, hBody])]
          constructor
          · rintro ⟨variant, carried, hVariant, rfl, shaped⟩
            exact .choice hFound hBody hVariant shaped
          · intro acceptable
            cases acceptable with
            | choice found body alternative carried =>
                obtain rfl := Option.some.inj (hFound.symm.trans found)
                obtain rfl := Declaration.Body.choice.inj (hBody.symm.trans body)
                exact ⟨_, _, alternative, rfl, carried⟩

/-- Where nothing is demanded the checker accepts what is acceptable. -/
theorem check_anything_iff {form : Form} {span : Span} {value : Value}
    (decided : ∀ part ∈ form.parts, part.Decided registry options) :
    form.check registry options .anything span = .accept value ↔
      Node.Acceptable registry options ⟨form, span⟩ value := by
  cases form with
  | string text =>
      simp only [Form.check, Demand.checkScalar]
      exact Verdict.accept_eq_iff_of_only .string (by rintro _ ⟨⟩; rfl)
  | integer n =>
      simp only [Form.check, Demand.checkScalar]
      exact Verdict.accept_eq_iff_of_only .integer (by rintro _ ⟨⟩; rfl)
  | float x =>
      simp only [Form.check, Demand.checkScalar]
      exact Verdict.accept_eq_iff_of_only .float (by rintro _ ⟨⟩; rfl)
  | boolean b =>
      simp only [Form.check, Demand.checkScalar]
      exact Verdict.accept_eq_iff_of_only .boolean (by rintro _ ⟨⟩; rfl)
  | null =>
      simp only [Form.check, Demand.checkScalar]
      exact Verdict.accept_eq_iff_of_only .null (by rintro _ ⟨⟩; rfl)
  | extended kind raw =>
      simp only [Form.check, Demand.checkScalar, checkExtended_eq_accept_iff]
      constructor
      · exact .extended
      · rintro ⟨⟩
        assumption
  | array items => exact check_array_iff decided
  | object typeName entries opened =>
      exact check_undemanded_object_iff fun entry mem => decided _ (List.mem_map_of_mem mem)
  | variant enum name payload => exact check_undemanded_variant_iff decided

/-! ### Declared types -/

theorem check_string_iff {form : Form} {span : Span} {value : Value} :
    form.check registry options .string span = .accept value ↔
      Node.HasType registry options .string ⟨form, span⟩ value := by
  cases form with
  | string text =>
      simp only [Form.check, Demand.checkScalar]
      exact Verdict.accept_eq_iff_of_only .string (by rintro _ ⟨⟩; rfl)
  | _ =>
      constructor
      · simp
      · intro typed
        cases typed

theorem check_integer_iff {form : Form} {span : Span} {value : Value} :
    form.check registry options .integer span = .accept value ↔
      Node.HasType registry options .integer ⟨form, span⟩ value := by
  cases form with
  | integer n =>
      simp only [Form.check, Demand.checkScalar]
      exact Verdict.accept_eq_iff_of_only .integer (by rintro _ ⟨⟩; rfl)
  | _ =>
      constructor
      · simp
      · intro typed
        cases typed

theorem check_boolean_iff {form : Form} {span : Span} {value : Value} :
    form.check registry options .boolean span = .accept value ↔
      Node.HasType registry options .boolean ⟨form, span⟩ value := by
  cases form with
  | boolean b =>
      simp only [Form.check, Demand.checkScalar]
      exact Verdict.accept_eq_iff_of_only .boolean (by rintro _ ⟨⟩; rfl)
  | _ =>
      constructor
      · simp
      · intro typed
        cases typed

/-- Where a floating-point number is demanded an integer is widened. -/
theorem check_float_iff {form : Form} {span : Span} {value : Value} :
    form.check registry options .float span = .accept value ↔
      Node.HasType registry options .float ⟨form, span⟩ value := by
  cases form with
  | float x =>
      simp only [Form.check, Demand.checkScalar]
      exact Verdict.accept_eq_iff_of_only .float (by rintro _ ⟨⟩; rfl)
  | integer n =>
      simp only [Form.check, Demand.checkScalar]
      exact Verdict.accept_eq_iff_of_only .widened (by rintro _ ⟨⟩; rfl)
  | _ =>
      constructor
      · simp
      · intro typed
        cases typed

theorem check_extended_iff {kind : Extended} {form : Form} {span : Span} {value : Value} :
    form.check registry options (.extended kind) span = .accept value ↔
      Node.HasType registry options (.extended kind) ⟨form, span⟩ value := by
  cases form with
  | string raw =>
      simp only [Form.check, Demand.checkScalar, checkExtended_eq_accept_iff]
      constructor
      · exact .quoted
      · rintro ⟨⟩
        assumption
  | extended found raw =>
      simp only [Form.check, Demand.checkScalar]
      by_cases hKind : found = kind
      · rw [if_pos hKind, checkExtended_eq_accept_iff, hKind]
        constructor
        · exact .extended
        · rintro ⟨⟩
          assumption
      · rw [if_neg hKind]
        refine ⟨by simp, fun typed => ?_⟩
        cases typed
        exact absurd rfl hKind
  | _ =>
      constructor
      · simp
      · intro typed
        cases typed

theorem check_array_type_iff {item : TypeExpr} {form : Form} {span : Span} {value : Value}
    (decided : ∀ part ∈ form.parts, part.Decided registry options) :
    form.check registry options (.array item) span = .accept value ↔
      Node.HasType registry options (.array item) ⟨form, span⟩ value := by
  cases form with
  | array items =>
      rw [Form.check, Verdict.map_eq_accept_iff]
      simp only [Node.checkAll_eq_map, Verdict.all_map_eq_accept_iff]
      constructor
      · rintro ⟨values, ⟨lengths, each⟩, rfl⟩
        refine .array lengths fun node value mem => ?_
        exact (decided node (List.of_mem_zip mem).1 (some item) value).1 (each node value mem)
      · intro typed
        cases typed with
        | @array _ _ values _ lengths each =>
            refine ⟨values, ⟨lengths, fun node value mem => ?_⟩, rfl⟩
            exact (decided node (List.of_mem_zip mem).1 (some item) value).2 (each node value mem)
  | _ =>
      constructor
      · simp
      · intro typed
        cases typed

/-- A declared type demands an object, annotated with its own name if at all. -/
theorem check_record_type_iff {name : String} {declaration : Declaration} {fields : List Field}
    {form : Form} {span : Span} {value : Value}
    (decided : ∀ part ∈ form.parts, part.Decided registry options)
    (found : registry.get? name = some declaration) (body : declaration.body = .record fields) :
    form.check registry options (.record name fields) span = .accept value ↔
      Node.HasType registry options (.named name) ⟨form, span⟩ value := by
  have hOther : ∀ {form : Form}, (∀ typeName entries opened, form ≠ .object typeName entries opened) →
      ¬ Node.HasType registry options (.named name) ⟨form, span⟩ value := by
    intro form hForm typed
    cases typed with
    | record => exact hForm _ _ _ rfl
    | choice hFound hBody =>
        obtain rfl := Option.some.inj (found.symm.trans hFound)
        exact absurd (body.symm.trans hBody) (by simp)
    | undeclared unknown => simp [found] at unknown
  cases form with
  | object typeName entries opened =>
      have hEntries : ∀ entry ∈ entries, entry.value.Decided registry options :=
        fun entry mem => decided entry.value (List.mem_map_of_mem mem)
      have hTyped : Node.HasType registry options (.named name)
          ⟨.object typeName entries opened, span⟩ value ↔ (∀ other ∈ typeName, other = name) ∧
            ∃ values, value = .object typeName values ∧
              Entry.Fill registry options fields entries values := by
        constructor
        · intro typed
          cases typed with
          | record hFound hBody label block =>
              obtain rfl := Option.some.inj (found.symm.trans hFound)
              obtain rfl := Declaration.Body.record.inj (body.symm.trans hBody)
              exact ⟨label, _, rfl, block⟩
          | undeclared unknown => simp [found] at unknown
        · rintro ⟨label, values, rfl, block⟩
          exact .record found body label block
      rw [hTyped]
      by_cases hLabel : ∀ other ∈ typeName, other = name
      · have hPlan : (Demand.record name fields).objectPlan registry typeName opened span =
            .declared (.ofType name fields) := by
          cases typeName with
          | none => rfl
          | some other => simp [hLabel other rfl]
        rw [check_object_iff _ hEntries hPlan]
        exact (and_iff_right hLabel).symm
      · cases typeName with
        | none => exact absurd (by simp) hLabel
        | some other =>
            have hName : other ≠ name := by simpa using hLabel
            simp [hName]
  | _ =>
      refine ⟨?_, fun typed => absurd typed (hOther (by simp))⟩
      simp

/-- An enum demands one of its alternatives. -/
theorem check_choice_type_iff {enum : String} {declaration : Declaration} {variants : List Variant}
    {form : Form} {span : Span} {value : Value}
    (decided : ∀ part ∈ form.parts, part.Decided registry options)
    (found : registry.get? enum = some declaration) (body : declaration.body = .choice variants) :
    form.check registry options (.choice enum variants) span = .accept value ↔
      Node.HasType registry options (.named enum) ⟨form, span⟩ value := by
  have hOther : ∀ {form : Form}, (∀ name payload, form ≠ .variant enum name payload) →
      ¬ Node.HasType registry options (.named enum) ⟨form, span⟩ value := by
    intro form hForm typed
    cases typed with
    | record hFound hBody =>
        obtain rfl := Option.some.inj (found.symm.trans hFound)
        exact absurd (body.symm.trans hBody) (by simp)
    | choice => exact hForm _ _ rfl
    | undeclared unknown => simp [found] at unknown
  cases form with
  | variant written name payload =>
      by_cases hEnum : written = enum
      · rw [hEnum, check_variant_iff variants decided (by simp)]
        constructor
        · rintro ⟨variant, carried, hVariant, rfl, shaped⟩
          exact .choice found body hVariant shaped
        · intro typed
          cases typed with
          | choice hFound hBody alternative carried =>
              obtain rfl := Option.some.inj (found.symm.trans hFound)
              obtain rfl := Declaration.Body.choice.inj (body.symm.trans hBody)
              exact ⟨_, _, alternative, rfl, carried⟩
          | undeclared unknown => simp [found] at unknown
      · refine ⟨?_, fun typed => absurd typed (hOther (by simp [hEnum]))⟩
        simp [hEnum]
  | _ =>
      refine ⟨?_, fun typed => absurd typed (hOther (by simp))⟩
      simp

end Form

/-- By induction on the written value, a position of either sort at a time. -/
theorem Node.decided (node : Node) : node.Decided registry options := by
  induction node using Node.induct with
  | step form span ih =>
      intro type? value
      rw [Node.check]
      cases type? with
      | none => exact Form.check_anything_iff ih
      | some type =>
          cases type with
          | string => exact Form.check_string_iff
          | integer => exact Form.check_integer_iff
          | float => exact Form.check_float_iff
          | boolean => exact Form.check_boolean_iff
          | extended kind => exact Form.check_extended_iff
          | array item => exact Form.check_array_type_iff ih
          | named name =>
              cases hFound : registry.get? name with
              | none =>
                  have hDemand : registry.demand (some (.named name)) = .anything := by
                    simp [Registry.demand, hFound]
                  rw [hDemand, Form.check_anything_iff ih]
                  refine ⟨Node.HasType.undeclared hFound, fun typed => ?_⟩
                  cases typed with
                  | record found => simp [hFound] at found
                  | choice found => simp [hFound] at found
                  | undeclared _ acceptable => exact acceptable
              | some declaration =>
                  cases hBody : declaration.body with
                  | record fields =>
                      have hDemand : registry.demand (some (.named name)) =
                          .record name fields := by
                        simp [Registry.demand, hFound, hBody]
                      rw [hDemand]
                      exact Form.check_record_type_iff ih hFound hBody
                  | choice variants =>
                      have hDemand : registry.demand (some (.named name)) =
                          .choice name variants := by
                        simp [Registry.demand, hFound, hBody]
                      rw [hDemand]
                      exact Form.check_choice_type_iff ih hFound hBody

/-- The checker accepts for a position exactly what fits it. -/
theorem Node.check_eq_accept_iff {node : Node} {type? : Option TypeExpr} {value : Value} :
    node.check registry options type? = .accept value ↔ node.Fits registry options type? value :=
  node.decided type? value

/-! ### Values and reports -/

theorem Options.checkExtended_settled {kind : Extended} {raw : String} {span : Span} :
    (options.checkExtended kind raw span).Settled := by
  rw [Options.checkExtended]
  split
  · exact .accept _
  · exact .refuse _

theorem Demand.checkScalar_settled {demand : Demand} {form : Form} {span : Span} :
    (demand.checkScalar options form span).Settled := by
  rcases demand.checkScalar_cases form span with ⟨_, hRun⟩ | ⟨_, _, hRun⟩ | hRun <;> rw [hRun]
  · exact .accept _
  · exact Options.checkExtended_settled
  · exact .refuse _

theorem Node.checkAll_settled {type? : Option TypeExpr} {nodes : List Node}
    (each : ∀ node ∈ nodes, ∀ type?, (node.check registry options type?).Settled) :
    ∀ v ∈ Node.checkAll registry options type? nodes, v.Settled := by
  rw [checkAll_eq_map]
  rintro v mem
  obtain ⟨node, hNode, rfl⟩ := List.mem_map.1 mem
  exact each node hNode type?

theorem Entry.checkAll_settled {declared? : Option OwnedFields} {entries : List Entry}
    (each : ∀ node ∈ entries.map Entry.value, ∀ type?,
      (node.check registry options type?).Settled) :
    (Verdict.all (Entry.checkAll registry options declared? entries)).Settled := by
  rw [checkAll_eq_map]
  refine .all fun v mem => ?_
  obtain ⟨entry, hEntry, rfl⟩ := List.mem_map.1 mem
  refine .map _ (.after _ ?_)
  split
  · exact .accept _
  · exact each entry.value (List.mem_map_of_mem hEntry) _

theorem Payload.check_settled {path : String} {span : Span} {declared? : Option (Payload Slot Field)}
    {payload : Payload Node Entry}
    (each : ∀ node ∈ payload.parts, ∀ type?, (node.check registry options type?).Settled) :
    (payload.check registry options path span declared?).Settled := by
  cases payload with
  | unit => exact .accept _
  | tuple items =>
      rw [Payload.check.eq_def]
      dsimp only
      split
      · next slots =>
        refine .map _ (.all fun v mem => ?_)
        rw [Node.checkSlots_eq_map] at mem
        obtain ⟨⟨slot, node⟩, hPair, rfl⟩ := List.mem_map.1 mem
        exact each node (List.of_mem_zip hPair).2 _
      · exact .map _ (.all (Node.checkAll_settled each))
  | fields entries =>
      rw [Payload.check.eq_def]
      dsimp only
      split
      · exact .map _ (.after _ (Entry.checkAll_settled each))
      · exact .map _ (Entry.checkAll_settled each)

theorem Form.check_settled_of_parts {demand : Demand} {form : Form} {span : Span}
    (each : ∀ node ∈ form.parts, ∀ type?, (node.check registry options type?).Settled) :
    (form.check registry options demand span).Settled := by
  cases form with
  | array items =>
      rw [Form.check.eq_def]
      dsimp only
      split
      · refine .map _ (ItemClass.allFrom_settled fun item mem => ?_)
        exact Node.checkAll_settled each item.2 (List.of_mem_zip mem).2
      · exact .map _ (.all (Node.checkAll_settled each))
      · exact .refuse _
  | object typeName entries opened =>
      rw [Form.check.eq_def]
      dsimp only
      split
      · exact .map _ (.after _ (Entry.checkAll_settled each))
      · exact .map _ (.after _ (Entry.checkAll_settled each))
      · exact .refuse _
  | variant enum name payload =>
      rw [Form.check.eq_def]
      dsimp only
      split
      · exact .map _ (Payload.check_settled each)
      · exact .map _ (.after _ (Payload.check_settled each))
      · exact .refuse _
  | _ =>
      simp only [Form.check]
      exact Demand.checkScalar_settled

/-- A value is refused with a report, and a report means that there is no value. -/
theorem Node.check_settled (node : Node) : ∀ type?, (node.check registry options type?).Settled := by
  induction node using Node.induct with
  | step form span ih =>
      intro type?
      rw [Node.check]
      exact Form.check_settled_of_parts ih

/-! ### References -/

theorem TypeExpr.refersTo_iff {type : TypeExpr} {name : String} :
    type.RefersTo name ↔ type.reference? = some name := by
  induction type with
  | named other =>
      rw [reference?, Option.some.injEq]
      constructor
      · rintro ⟨⟩
        rfl
      · rintro rfl
        exact .named
  | array item ih =>
      rw [reference?, ← ih]
      constructor
      · intro refers
        cases refers with
        | array inner => exact inner
      · exact .array
  | _ =>
      constructor
      · intro refers
        cases refers
      · simp [reference?]

namespace Registry

theorem contains_iff {name : String} :
    registry.contains name = true ↔ ∃ target ∈ registry.declarations, target.name = name := by
  simp [contains, get?, List.find?_isSome]

theorem unresolvedIn_eq_nil_iff {type : TypeExpr} {span : Span} :
    registry.unresolvedIn type span = [] ↔ ∀ name, type.RefersTo name →
      ∃ target ∈ registry.declarations, target.name = name := by
  simp only [TypeExpr.refersTo_iff, unresolvedIn, ← contains_iff]
  cases type.reference? with
  | none => simp
  | some name => simp

theorem unresolvedInFields_eq_nil_iff {fields : List Field} :
    registry.unresolvedInFields fields = [] ↔ ∀ type ∈ fields.map Field.type,
      ∀ name, type.RefersTo name → ∃ target ∈ registry.declarations, target.name = name := by
  simp only [unresolvedInFields, List.flatMap_eq_nil_iff, unresolvedIn_eq_nil_iff,
    List.forall_mem_map]

theorem unresolvedInPayload_eq_nil_iff {shape : Payload Slot Field} :
    registry.unresolvedInPayload shape = [] ↔ ∀ type ∈ shape.types,
      ∀ name, type.RefersTo name → ∃ target ∈ registry.declarations, target.name = name := by
  cases shape with
  | unit => simp [unresolvedInPayload, Payload.types]
  | tuple slots =>
      simp only [unresolvedInPayload, Payload.types, List.flatMap_eq_nil_iff,
        unresolvedIn_eq_nil_iff, List.forall_mem_map]
  | fields fields => exact unresolvedInFields_eq_nil_iff

/-- No reference is reported exactly if every name that is referred to is declared. -/
theorem unresolved_eq_nil_iff : registry.unresolved = [] ↔ registry.Resolved := by
  rw [unresolved, List.flatMap_eq_nil_iff]
  refine forall_congr' fun d => imp_congr_right fun _ => ?_
  cases hBody : d.body with
  | record fields =>
      rw [unresolvedInBody, unresolvedInFields_eq_nil_iff, Declaration.types, hBody]
  | choice variants =>
      simp only [unresolvedInBody, Declaration.types, hBody, List.flatMap_eq_nil_iff,
        unresolvedInPayload_eq_nil_iff, List.mem_flatMap]
      constructor
      · rintro each type ⟨variant, hVariant, hType⟩
        exact each variant hVariant type hType
      · intro each variant hVariant type hType
        exact each type ⟨variant, hVariant, hType⟩

end Registry

/-- A bundle is checked with success exactly if the references of the declarations are resolved and
the root object is acceptable, and the configuration is what the root object becomes. -/
theorem Bundle.check_eq_ok_iff {bundle : Bundle} {configuration : Configuration} :
    bundle.check registry options = .ok configuration ↔ registry.Resolved ∧
      Node.Acceptable registry options
        ⟨.object none bundle.root.entries bundle.root.span, bundle.root.span⟩
        configuration.toValue := by
  obtain ⟨fields⟩ := configuration
  rw [Bundle.check, Verdict.toExcept_eq_ok_iff, Verdict.after_eq_accept_iff,
    Registry.unresolved_eq_nil_iff, Verdict.map_eq_accept_iff]
  simp only [Entry.checkAll_eq_accept_iff fun entry _ => Node.decided entry.value]
  refine and_congr_right fun _ => ?_
  constructor
  · rintro ⟨values, ⟨keys, each⟩, ⟨⟩⟩
    exact .object keys each
  · intro acceptable
    cases acceptable with
    | object keys each => exact ⟨fields, ⟨keys, each⟩, rfl⟩

/-- The checker decides the typing of written values. It gives for a position exactly the values
that fit there, it reports nothing exactly if there is one, and a whole document is accepted exactly
if its declarations refer to declared names and its root object is acceptable. -/
theorem check_decides_typing (registry : Registry) (options : Options) :
    (∀ (type? : Option TypeExpr) (node : Node) (value : Value),
      (node.check registry options type?).value? = some value ↔
        node.Fits registry options type? value) ∧
    (∀ (type? : Option TypeExpr) (node : Node),
      (node.check registry options type?).errors = [] ↔
        ∃ value, node.Fits registry options type? value) ∧
    ∀ (bundle : Bundle) (configuration : Configuration),
      bundle.check registry options = .ok configuration ↔ registry.Resolved ∧
        Node.Acceptable registry options
          ⟨.object none bundle.root.entries bundle.root.span, bundle.root.span⟩
          configuration.toValue := by
  have hValue : ∀ (type? : Option TypeExpr) (node : Node) (value : Value),
      (node.check registry options type?).value? = some value ↔
        node.Fits registry options type? value := by
    intro type? node value
    rw [(node.check_settled type?).value?_eq_some_iff, Node.check_eq_accept_iff]
  refine ⟨hValue, fun type? node => ?_, fun bundle configuration => Bundle.check_eq_ok_iff⟩
  have hSettled : (node.check registry options type?).value?.isSome = true ↔
      (node.check registry options type?).errors = [] := node.check_settled type?
  rw [← hSettled, Option.isSome_iff_exists]
  exact exists_congr (hValue type? node)

end TypedConfig
