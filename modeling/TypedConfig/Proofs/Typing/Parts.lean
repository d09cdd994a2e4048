import TypedConfig.Proofs.Typing.Homogeneity
import TypedConfig.Typing.Check
/-!
The parts of a written value: lists, entries and payloads are accepted exactly if their parts are
typed as the parts of what they become, provided that the checker decides the typing of each part.
-/
namespace TypedConfig

/-- Verdicts on things in a row accept if each accepts its counterpart. -/
theorem Verdict.all_map_eq_accept_iff {α β : Type} {f : α → Verdict β} {as : List α} {bs : List β} :
    Verdict.all (as.map f) = .accept bs ↔
      as.length = bs.length ∧ ∀ a b, (a, b) ∈ as.zip bs → f a = .accept b := by
  rw [all_eq_accept_iff, List.forall₂_map_left_iff, List.forall₂_iff_zip]

section

variable (registry : Registry) (options : Options)

/-- The check of one entry. -/
def Entry.check (declared? : Option OwnedFields) (entry : Entry) : Verdict (String × Value) :=
  let plan := EntryPlan.ofKey declared? entry.key entry.keySpan
  let verdict := if plan.optional && entry.value.isNull then .accept .null
    else entry.value.check registry options plan.type?
  (verdict.after plan.faults).map (entry.key, ·)

end

variable {registry : Registry} {options : Options}

theorem Node.checkAll_eq_map {type? : Option TypeExpr} {nodes : List Node} :
    Node.checkAll registry options type? nodes = nodes.map (Node.check registry options type?) := by
  induction nodes with
  | nil => rfl
  | cons node nodes ih => rw [Node.checkAll, ih, List.map_cons]

theorem Node.checkSlots_eq_map {slots : List Slot} {nodes : List Node} :
    Node.checkSlots registry options slots nodes =
      (slots.zip nodes).map fun pair => pair.2.check registry options (some pair.1.type) := by
  induction nodes generalizing slots with
  | nil => cases slots <;> rfl
  | cons node nodes ih =>
      cases slots with
      | nil => rfl
      | cons slot slots => rw [Node.checkSlots, ih, List.zip_cons_cons, List.map_cons]

theorem Entry.checkAll_eq_map {declared? : Option OwnedFields} {entries : List Entry} :
    Entry.checkAll registry options declared? entries =
      entries.map (Entry.check registry options declared?) := by
  induction entries with
  | nil => rfl
  | cons entry entries ih =>
      obtain ⟨key, keySpan, node⟩ := entry
      rw [Entry.checkAll, ih, List.map_cons, check]

theorem Node.isNull_iff {node : Node} : node.isNull = true ↔ node.form = .null := by
  obtain ⟨form, span⟩ := node
  cases form <;> simp [Node.isNull]

/-- A literal that has no parts is accepted, or told by its text, or refused for what it is. -/
theorem Demand.checkScalar_cases (demand : Demand) (form : Form) (span : Span) :
    (∃ value, demand.checkScalar options form span = .accept value) ∨
      (∃ kind raw, demand.checkScalar options form span = options.checkExtended kind raw span) ∨
        demand.checkScalar options form span = .refuse (demand.mismatch form span) := by
  rw [checkScalar.eq_def]
  split
  case h_6 | h_12 => exact .inr (.inl ⟨_, _, rfl⟩)
  case h_13 found raw =>
    split
    · exact .inr (.inl ⟨_, _, rfl⟩)
    · exact .inr (.inr rfl)
  case h_14 => exact .inr (.inr rfl)
  all_goals exact .inl ⟨_, rfl⟩

/-- The checker accepts for a written value exactly what the value becomes. -/
def Node.Decided (registry : Registry) (options : Options) (node : Node) : Prop :=
  ∀ type? value, node.check registry options type? = .accept value ↔
    node.Fits registry options type? value

theorem Node.HasType.eq_null {type : TypeExpr} {span : Span} {value : Value}
    (typed : Node.HasType registry options type ⟨.null, span⟩ value) : value = .null := by
  cases typed with
  | undeclared unknown acceptable =>
      cases acceptable
      rfl

theorem OwnedFields.missing_eq_nil_iff {declared : OwnedFields} {entries : List Entry}
    {span : Span} : declared.missing entries span = [] ↔
      ∀ field ∈ declared.fields, field.optional = false →
        ∃ entry ∈ entries, entry.key = field.name := by
  simp [OwnedFields.missing]

/-- What is accepted for a declared field. -/
theorem Field.takes_iff {field : Field} {node : Node} {value : Value}
    (decided : node.Decided registry options) :
    (if field.optional && node.isNull then .accept .null
        else node.check registry options (some field.type)) = .accept value ↔
      Field.Takes registry options field node value := by
  obtain ⟨form, span⟩ := node
  by_cases hNull : field.optional = true ∧ form = .null
  · obtain ⟨hOptional, rfl⟩ := hNull
    rw [if_pos (by simp [hOptional, Node.isNull_iff]), Verdict.accept_inj]
    constructor
    · rintro rfl
      exact .null hOptional
    · intro takes
      cases takes with
      | typed typed => exact typed.eq_null.symm
      | null => rfl
  · rw [if_neg (by simpa [Node.isNull_iff] using hNull), decided (some field.type) value]
    constructor
    · exact .typed
    · intro takes
      cases takes with
      | typed typed => exact typed
      | null optional => exact absurd ⟨optional, rfl⟩ hNull

namespace Entry

theorem check_eq_accept_iff {entry : Entry} {value : String × Value}
    (decided : entry.value.Decided registry options) :
    entry.check registry options none = .accept value ↔
      entry.key = value.1 ∧ Node.Acceptable registry options entry.value value.2 := by
  obtain ⟨key, value⟩ := value
  rw [check, Verdict.map_eq_accept_iff]
  simp only [EntryPlan.ofKey, Bool.false_and, Bool.false_eq_true, if_false,
    Verdict.after_eq_accept_iff, true_and, Prod.mk.injEq]
  constructor
  · rintro ⟨a, hValue, rfl, rfl⟩
    exact ⟨rfl, (decided none a).1 hValue⟩
  · rintro ⟨rfl, hValue⟩
    exact ⟨value, (decided none value).2 hValue, rfl, rfl⟩

theorem check_declared_eq_accept_iff {declared : OwnedFields} {entry : Entry}
    {value : String × Value} (decided : entry.value.Decided registry options) :
    entry.check registry options (some declared) = .accept value ↔ entry.key = value.1 ∧
      ∃ field, declared.fields.find? (·.name = entry.key) = some field ∧
        Field.Takes registry options field entry.value value.2 := by
  obtain ⟨key, value⟩ := value
  rw [check, Verdict.map_eq_accept_iff]
  cases hField : declared.fields.find? (·.name = entry.key) with
  | none => simp [EntryPlan.ofKey, hField]
  | some field =>
      simp only [EntryPlan.ofKey, hField, Verdict.after_eq_accept_iff, true_and, Option.some.injEq,
        exists_eq_left', Prod.mk.injEq]
      constructor
      · rintro ⟨a, hValue, rfl, rfl⟩
        exact ⟨rfl, (Field.takes_iff decided).1 hValue⟩
      · rintro ⟨rfl, hValue⟩
        exact ⟨value, (Field.takes_iff decided).2 hValue, rfl, rfl⟩

theorem keys_eq_iff {entries : List Entry} {values : List (String × Value)} :
    entries.map Entry.key = values.map Prod.fst ↔ entries.length = values.length ∧
      ∀ entry value, (entry, value) ∈ entries.zip values → entry.key = value.1 := by
  rw [← List.forall₂_eq_eq_eq, List.forall₂_map_left_iff, List.forall₂_map_right_iff,
    List.forall₂_iff_zip]

variable {entries : List Entry} {values : List (String × Value)}

/-- The entries of an undeclared object. -/
theorem checkAll_eq_accept_iff
    (decided : ∀ entry ∈ entries, entry.value.Decided registry options) :
    Verdict.all (checkAll registry options none entries) = .accept values ↔
      entries.map Entry.key = values.map Prod.fst ∧ ∀ entry value, (entry, value) ∈
        entries.zip values → Node.Acceptable registry options entry.value value.2 := by
  rw [checkAll_eq_map, Verdict.all_map_eq_accept_iff, keys_eq_iff, and_assoc, ← forall_and]
  refine and_congr_right fun _ => forall_congr' fun entry => ?_
  rw [← forall_and]
  refine forall_congr' fun value => ?_
  rw [← imp_and]
  refine imp_congr_right fun mem => ?_
  exact check_eq_accept_iff (decided entry (List.of_mem_zip mem).1)

/-- The entries of a declared type or of a payload with declared fields. -/
theorem fill_iff {declared : OwnedFields} {span : Span}
    (decided : ∀ entry ∈ entries, entry.value.Decided registry options) :
    (Verdict.all (checkAll registry options (some declared) entries)).after
        (declared.missing entries span) = .accept values ↔
      Entry.Fill registry options declared.fields entries values := by
  rw [Verdict.after_eq_accept_iff, OwnedFields.missing_eq_nil_iff, checkAll_eq_map,
    Verdict.all_map_eq_accept_iff]
  have hEntry : ∀ entry value, (entry, value) ∈ entries.zip values →
      (entry.check registry options (some declared) = .accept value ↔ entry.key = value.1 ∧
        ∃ field, declared.fields.find? (·.name = entry.key) = some field ∧
          Field.Takes registry options field entry.value value.2) := fun entry value mem =>
    check_declared_eq_accept_iff (decided entry (List.of_mem_zip mem).1)
  constructor
  · rintro ⟨present, lengths, each⟩
    refine .intro present (fun entry mem => ?_) (keys_eq_iff.2 ⟨lengths, ?_⟩) ?_
    · obtain ⟨value, hMem⟩ : ∃ value, (entry, value) ∈ entries.zip values := by
        rw [← List.map_fst_zip (Nat.le_of_eq lengths)] at mem
        obtain ⟨⟨_, value⟩, hMem, rfl⟩ := List.mem_map.1 mem
        exact ⟨value, hMem⟩
      obtain ⟨-, field, hField, -⟩ := (hEntry entry value hMem).1 (each entry value hMem)
      exact ⟨field, hField⟩
    · intro entry value mem
      exact ((hEntry entry value mem).1 (each entry value mem)).1
    · intro entry value field mem hField
      obtain ⟨-, found, hFound, takes⟩ := (hEntry entry value mem).1 (each entry value mem)
      rw [hField] at hFound
      exact Option.some.inj hFound ▸ takes
  · rintro ⟨present, known, keys, each⟩
    obtain ⟨lengths, hKeys⟩ := keys_eq_iff.1 keys
    refine ⟨present, lengths, fun entry value mem => (hEntry entry value mem).2 ⟨hKeys _ _ mem, ?_⟩⟩
    obtain ⟨field, hField⟩ := known entry (List.of_mem_zip mem).1
    exact ⟨field, hField, each entry value field mem hField⟩

end Entry

theorem Payload.check_eq_accept_iff {path : String} {span : Span} {shape : Payload Slot Field}
    {payload : Payload Node Entry} {value : Payload Value (String × Value)}
    (decided : ∀ part ∈ payload.parts, part.Decided registry options)
    (fits : shape.fits payload = true) :
    payload.check registry options path span (some shape) = .accept value ↔
      Payload.HasShape registry options shape payload value := by
  cases payload with
  | unit =>
      cases shape with
      | unit =>
          rw [Payload.check, Verdict.accept_inj]
          constructor
          · rintro rfl
            exact .unit
          · rintro ⟨⟩
            rfl
      | _ => cases fits
  | tuple items =>
      cases shape with
      | tuple slots =>
          have arity : slots.length = items.length := by simpa [Payload.fits] using fits
          rw [Payload.check, Verdict.map_eq_accept_iff]
          simp only [Node.checkSlots_eq_map, Verdict.all_map_eq_accept_iff]
          have hSlot : ∀ slot node value, (slot, node) ∈ slots.zip items →
              (node.check registry options (some slot.type) = .accept value ↔
                node.HasType registry options slot.type value) := fun slot node value mem =>
            decided node (List.of_mem_zip mem).2 (some slot.type) value
          constructor
          · rintro ⟨values, ⟨lengths, each⟩, rfl⟩
            refine .tuple arity (by simpa [arity] using lengths) fun slot node value mem => ?_
            exact (hSlot slot node value (List.of_mem_zip mem).1).1 (each (slot, node) value mem)
          · intro shaped
            cases shaped with
            | @tuple _ _ values arity lengths each =>
                refine ⟨values, ⟨by simpa [arity] using lengths, fun pair value mem => ?_⟩, rfl⟩
                exact (hSlot pair.1 pair.2 value (List.of_mem_zip mem).1).2 (each _ _ _ mem)
      | _ => cases fits
  | fields entries =>
      cases shape with
      | fields fields =>
          have hEntries : ∀ entry ∈ entries, entry.value.Decided registry options :=
            fun entry mem => decided entry.value (List.mem_map_of_mem mem)
          rw [Payload.check, Verdict.map_eq_accept_iff]
          simp only [Entry.fill_iff hEntries]
          constructor
          · rintro ⟨values, block, rfl⟩
            exact .fields block
          · intro shaped
            cases shaped with
            | fields block => exact ⟨_, block, rfl⟩
      | _ => cases fits

theorem Payload.HasShape.fits {shape : Payload Slot Field} {payload : Payload Node Entry}
    {value : Payload Value (String × Value)}
    (shaped : Payload.HasShape registry options shape payload value) :
    shape.fits payload = true := by
  cases shaped with
  | tuple arity => simpa [Payload.fits] using arity
  | _ => rfl

end TypedConfig
