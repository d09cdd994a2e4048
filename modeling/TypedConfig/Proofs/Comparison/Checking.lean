import TypedConfig.Proofs.Comparison.Plans
/-!
Checking two written values that vary, against registries that agree on the names in question,
gives verdicts that agree: the values vary, and what is reported varies, in the same order if
entries stand in the same order.
-/
namespace TypedConfig

variable {t : Tolerance} {registry other : Registry} {options : Options}

/-- The verdicts on a written value and on every one that varies from it agree. -/
def Node.ChecksAlike (t : Tolerance) (registry other : Registry) (options : Options) (node : Node) :
    Prop :=
  ∀ node' type?, Node.Varies t node node' → (∀ type ∈ type?, type.Within t.names) →
    Verdict.Agrees t (Value.Varies t.free) (node.check registry options type?)
      (node'.check other options type?)

theorem Node.Varies.isNull {node node' : Node} (varies : Node.Varies t node node') :
    node.isNull = node'.isNull := by
  cases varies <;> rfl

theorem Node.Varies.here {node node' : Node} (varies : Node.Varies t node node') :
    t.places node.span node'.span := by
  cases varies <;> assumption

/-! ### Lists -/

section

variable {items items' : List Node}
  (ih : ∀ part ∈ items, part.ChecksAlike t registry other options)
  (varies : List.Forall₂ (Node.Varies t) items items')

include ih varies

theorem Node.checkAll_agrees {type? : Option TypeExpr}
    (within : ∀ type ∈ type?, type.Within t.names) :
    List.Forall₂ (Verdict.Agrees t (Value.Varies t.free))
      (Node.checkAll registry options type? items) (Node.checkAll other options type? items') := by
  rw [checkAll_eq_map, checkAll_eq_map]
  induction varies with
  | nil => exact .nil
  | cons first _ hRest =>
      obtain ⟨hFirst, hOthers⟩ := List.forall_mem_cons.1 ih
      exact .cons (hFirst _ type? first within) (hRest hOthers)

theorem Node.checkSlots_agrees {slots slots' : List Slot}
    (same : slots.map Slot.type = slots'.map Slot.type)
    (within : ∀ s ∈ slots, s.type.Within t.names) :
    List.Forall₂ (Verdict.Agrees t (Value.Varies t.free))
      (Node.checkSlots registry options slots items)
      (Node.checkSlots other options slots' items') := by
  induction varies generalizing slots slots' with
  | nil => cases slots <;> cases slots' <;> exact .nil
  | cons first _ hRest =>
      obtain ⟨hFirst, hOthers⟩ := List.forall_mem_cons.1 ih
      cases slots with
      | nil =>
          cases slots' with
          | nil => exact .nil
          | cons s' slots' => cases same
      | cons s slots =>
          cases slots' with
          | nil => cases same
          | cons s' slots' =>
              obtain ⟨hType, hTypes⟩ := List.cons.inj same
              obtain ⟨hSlot, hSlots⟩ := List.forall_mem_cons.1 within
              rw [Node.checkSlots, Node.checkSlots, ← hType]
              exact .cons (hFirst _ _ first (by simpa using hSlot)) (hRest hOthers hTypes hSlots)

theorem Node.checkItems_agrees :
    List.Forall₂ (fun item item' => t.places item.1 item'.1 ∧
        Verdict.Agrees t (Value.Varies t.free) item.2 item'.2)
      ((items.map Node.span).zip (Node.checkAll registry options none items))
      ((items'.map Node.span).zip (Node.checkAll other options none items')) := by
  rw [checkAll_eq_map, checkAll_eq_map]
  induction varies with
  | nil => exact .nil
  | cons first _ hRest =>
      obtain ⟨hFirst, hOthers⟩ := List.forall_mem_cons.1 ih
      exact .cons ⟨first.here, hFirst _ none first (by simp)⟩ (hRest hOthers)

end

theorem Entry.check_agrees {declared? other? : Option OwnedFields}
    (alike : Option.Rel (OwnedFields.Alike t.names) declared? other?) {entry entry' : Entry}
    (checks : entry.value.ChecksAlike t registry other options)
    (varies : Entry.Varies t entry entry') :
    Verdict.Agrees t (Value.FieldVaries t.free) (entry.check registry options declared?)
      (entry'.check other options other?) := by
  cases varies with
  | @intro key keySpan keySpan' value value' here inner =>
      obtain ⟨hFaults, hOptional, hType, hWithin⟩ := EntryPlan.ofKey_alike key alike here
      simp only [Entry.check]
      refine .map (.after hFaults ?_) fun v w related => .intro related
      rw [← hOptional, ← hType, ← inner.isNull]
      split
      · exact .accept (.leaf rfl)
      · exact checks _ _ inner hWithin

theorem Entry.checkAll_agrees {declared? other? : Option OwnedFields}
    (alike : Option.Rel (OwnedFields.Alike t.names) declared? other?)
    {entries entries' : List Entry}
    (ih : ∀ part ∈ entries.map Entry.value, part.ChecksAlike t registry other options)
    (varies : Arranged t.free (Entry.Varies t) entries entries') :
    Verdict.Agrees t (Arranged t.free (Value.FieldVaries t.free))
      (Verdict.all (Entry.checkAll registry options declared? entries))
      (Verdict.all (Entry.checkAll other options other? entries')) := by
  rw [checkAll_eq_map, checkAll_eq_map]
  obtain ⟨middle, hEach, hOrder⟩ := varies
  refine .all (Arranged.shuffle (.of_forall₂ ?_) (hOrder.map _))
  clear hOrder
  induction hEach with
  | nil => exact .nil
  | cons first _ hRest =>
      obtain ⟨hFirst, hOthers⟩ := List.forall_mem_cons.1 ih
      exact .cons (check_agrees alike hFirst first) (hRest hOthers)

theorem Value.itemClass?_eq {free : Prop} {value? value?' : Option Value}
    (varies : Option.Rel (Value.Varies free) value? value?') :
    value?.bind Value.itemClass? = value?'.bind Value.itemClass? := by
  cases varies with
  | none => rfl
  | some varies => cases varies <;> rfl

/-- Items of arrays in undeclared positions are compared alike. -/
theorem ItemClass.allFrom_agrees {items items' : List (Span × Verdict Value)}
    (each : List.Forall₂ (fun item item' => t.places item.1 item'.1 ∧
      Verdict.Agrees t (Value.Varies t.free) item.2 item'.2) items items')
    (fixed : Option ItemClass) :
    Verdict.Agrees t (List.Forall₂ (Value.Varies t.free)) (allFrom fixed items)
      (allFrom fixed items') := by
  induction each generalizing fixed with
  | nil => exact .accept .nil
  | @cons item item' _ _ first _ ih =>
      obtain ⟨span, errors, value?⟩ := item
      obtain ⟨span', errors', value?'⟩ := item'
      obtain ⟨here, hErrors, hValue⟩ := first
      have hFaults : Arranged t.free (Diagnostic.Varies t) (faults fixed value? span)
          (faults fixed value?' span') := by
        simp only [faults, ← Value.itemClass?_eq hValue]
        split
        · split
          · exact .nil
          · exact .one ⟨rfl, here⟩
        · exact .nil
      have hJudged : Option.Rel (Value.Varies t.free)
          (if (faults fixed value? span).isEmpty then value? else none)
          (if (faults fixed value?' span').isEmpty then value?' else none) := by
        simp only [List.isEmpty_iff, hFaults.eq_nil_iff]
        split
        · exact hValue
        · exact .none
      simp only [allFrom, ← Value.itemClass?_eq hJudged]
      exact .both ⟨hErrors.append hFaults, hJudged⟩ (ih _) fun _ _ _ _ => .cons

/-! ### Payloads -/

/-- Payloads of values vary; this is what is told of them as parts of an alternative. -/
def Value.PayloadVaries (free : Prop) (p q : Payload Value (String × Value)) : Prop :=
  ∀ enum name, Value.Varies free (.variant enum name p) (.variant enum name q)

theorem Arranged.payloadVaries {free : Prop} {fields fields' : List (String × Value)}
    (arranged : Arranged free (Value.FieldVaries free) fields fields') :
    Value.PayloadVaries free (.fields fields) (.fields fields') := by
  intro enum name
  obtain ⟨middle, hEach, hOrder⟩ := arranged
  exact .fields hEach hOrder

theorem Arranged.objectVaries {free : Prop} {fields fields' : List (String × Value)}
    (arranged : Arranged free (Value.FieldVaries free) fields fields') (typeName : Option String) :
    Value.Varies free (.object typeName fields) (.object typeName fields') := by
  obtain ⟨middle, hEach, hOrder⟩ := arranged
  exact .object hEach hOrder

theorem Payload.check_agrees {shape? other? : Option (Payload Slot Field)}
    (alike : Option.Rel (Payload.Alike t.names) shape? other?)
    {payload payload' : Payload Node Entry}
    (ih : ∀ part ∈ payload.parts, part.ChecksAlike t registry other options)
    (varies : Payload.Varies t payload payload') {span span' : Span} (here : t.places span span')
    (path : String) :
    Verdict.Agrees t (Value.PayloadVaries t.free)
      (payload.check registry options path span shape?)
      (payload'.check other options path span' other?) := by
  cases varies with
  | unit => exact .accept fun _ _ => .leaf rfl
  | @tuple items items' each =>
      have hLoose : Verdict.Agrees t (Value.PayloadVaries t.free)
          ((Verdict.all (Node.checkAll registry options none items)).map .tuple)
          ((Verdict.all (Node.checkAll other options none items')).map .tuple) :=
        (Verdict.Agrees.all_of_forall₂ (Node.checkAll_agrees ih each (by simp))).map
          fun _ _ related _ _ => .tuple related
      cases alike with
      | none => exact hLoose
      | some alike =>
          rcases alike.cases with
            ⟨rfl, rfl⟩ | ⟨_, _, rfl, rfl, hTypes, hWithin⟩ | ⟨_, _, rfl, rfl, -⟩
          · exact hLoose
          · exact (Verdict.Agrees.all_of_forall₂
              (Node.checkSlots_agrees ih each hTypes hWithin)).map
                fun _ _ related _ _ => .tuple related
          · exact hLoose
  | @fields entries middle entries' each order =>
      have hEntries : Arranged t.free (Entry.Varies t) entries entries' := ⟨middle, each, order⟩
      have hLoose : Verdict.Agrees t (Value.PayloadVaries t.free)
          ((Verdict.all (Entry.checkAll registry options none entries)).map .fields)
          ((Verdict.all (Entry.checkAll other options none entries')).map .fields) :=
        (Entry.checkAll_agrees .none ih hEntries).map
          fun _ _ related => related.payloadVaries
      cases alike with
      | none => exact hLoose
      | some alike =>
          rcases alike.cases with
            ⟨rfl, rfl⟩ | ⟨_, _, rfl, rfl, -⟩ | ⟨fields, fields', rfl, rfl, hFields⟩
          · exact hLoose
          · exact hLoose
          · have hOwned : OwnedFields.Alike t.names ⟨"variant " ++ path, fields⟩
                ⟨"variant " ++ path, fields'⟩ := ⟨rfl, hFields⟩
            rw [Payload.check, Payload.check]
            exact ((Entry.checkAll_agrees (.some hOwned) ih hEntries).after
              (OwnedFields.missing_alike hOwned hEntries here)).map
                fun _ _ related => related.payloadVaries

/-! ### Values -/

/-- By induction on the written value: demands and plans are alike, and the parts check alike. -/
theorem Node.check_varies (alike : Registry.AgreesOn t.names registry other) (node : Node) :
    node.ChecksAlike t registry other options := by
  induction node using Node.induct with
  | step form span ih =>
      intro node' type? varies within
      have hDemand := alike.demand within
      rw [Node.check]
      cases varies with
      | scalar scalar here =>
          rw [Node.check]
          have hScalar : ∀ (registry : Registry) (demand : Demand) (span : Span),
              form.check registry options demand span = demand.checkScalar options form span := by
            intro registry demand span
            cases form with
            | array | object | variant => cases scalar
            | _ => rfl
          rw [hScalar, hScalar, ← hDemand.checkScalar]
          exact Demand.checkScalar_agrees here
      | @array items items' _ _ each here =>
          rw [Node.check]
          generalize registry.demand type? = demand at hDemand ⊢
          generalize other.demand type? = demand' at hDemand ⊢
          have hDescribed : (Form.array items).describe = (Form.array items').describe := rfl
          have hMismatch := hDemand.mismatch hDescribed here
          cases hDemand with
          | anything =>
              refine (ItemClass.allFrom_agrees ?_ none).map fun _ _ => .array
              exact checkItems_agrees ih each
          | array hItem =>
              exact (Verdict.Agrees.all_of_forall₂ (checkAll_agrees ih each
                (by simpa using hItem))).map fun _ _ => .array
          | _ => exact .refuse hMismatch
      | @object typeName entries middle entries' opened opened' _ _ named each order brace here =>
          rw [Node.check, Form.check, Form.check]
          have hEntries : Arranged t.free (Entry.Varies t) entries entries' := ⟨middle, each, order⟩
          have hPlan := hDemand.objectPlan alike named brace here
          generalize (registry.demand type?).objectPlan registry typeName opened _ = plan at hPlan ⊢
          generalize (other.demand type?).objectPlan other typeName opened' _ = plan' at hPlan ⊢
          cases hPlan with
          | declared hDeclared =>
              exact ((Entry.checkAll_agrees (.some hDeclared) ih hEntries).after
                (OwnedFields.missing_alike hDeclared hEntries brace)).map
                  fun _ _ related => related.objectVaries typeName
          | undeclared hFaults =>
              exact ((Entry.checkAll_agrees .none ih hEntries).after hFaults).map
                fun _ _ related => related.objectVaries typeName
          | skipped hFault => exact .refuse hFault
      | @variant enum name payload payload' _ _ named carried here =>
          rw [Node.check, Form.check, Form.check]
          have hPlan := hDemand.variantPlan alike named name carried here
          generalize (registry.demand type?).variantPlan registry enum name payload _ = plan
            at hPlan ⊢
          generalize (other.demand type?).variantPlan other enum name payload' _ = plan' at hPlan ⊢
          cases hPlan with
          | declared hShape =>
              exact (Payload.check_agrees (.some hShape) ih carried here _).map
                fun _ _ related => related enum name
          | undeclared hFaults =>
              exact ((Payload.check_agrees .none ih carried here _).after hFaults).map
                fun _ _ related => related enum name
          | skipped hFault => exact .refuse hFault

theorem Bundle.check_eq (registry : Registry) (options : Options) (bundle : Bundle) :
    bundle.check registry options =
      ((bundle.verdict registry options).after registry.unresolved).toExcept := rfl

theorem Bundle.verdict_agrees (alike : Registry.AgreesOn t.names registry other)
    (options : Options) {bundle bundle' : Bundle} (varies : bundle.Varies t bundle') :
    Verdict.Agrees t (Configuration.Varies t.free) (bundle.verdict registry options)
      (bundle'.verdict other options) :=
  (Entry.checkAll_agrees .none (fun part _ => part.check_varies alike) varies).map
    fun _ _ related => related

/-- What is reported of a declaration depends only on which names are declared. -/
theorem Registry.unresolvedInBody_eq (same : registry.contains = other.contains) :
    registry.unresolvedInBody = other.unresolvedInBody := by
  have hIn : registry.unresolvedIn = other.unresolvedIn := by
    funext type span
    rw [unresolvedIn, unresolvedIn, same]
  have hFields : registry.unresolvedInFields = other.unresolvedInFields := by
    funext fields
    simp only [unresolvedInFields, hIn]
  have hPayload : registry.unresolvedInPayload = other.unresolvedInPayload := by
    funext shape
    cases shape <;> simp only [unresolvedInPayload, hIn, hFields]
  funext body
  cases body <;> simp only [unresolvedInBody, hFields, hPayload]

/-- A registry agrees with itself. -/
theorem Registry.AgreesOn.refl (registry : Registry) :
    Registry.AgreesOn (fun _ => True) registry registry :=
  ⟨fun _ _ => rfl, fun _ _ _ _ _ _ _ _ => trivial⟩

end TypedConfig
