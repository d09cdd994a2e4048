import TypedConfig.Proofs.Printing.Formats
import TypedConfig.Proofs.Printing.Printability
import TypedConfig.Proofs.Typing.Parts
/-!
The written value that is printed for a checked value becomes that value again, in the position that
the checked value has come from. Declarations may have other places then.
-/
namespace TypedConfig

/-! ### Declarations up to places -/

/-- The same declarations in the same order, up to places. -/
def Registry.Alike (registry other : Registry) : Prop :=
  other.declarations.map Declaration.unplaced = registry.declarations.map Declaration.unplaced

section

variable {α : Type} (f : α → α) (key : α → String) {as bs : List α}

/-- What is found by a key that a function keeps is the same up to that function. -/
theorem map_find?_eq (keeps : ∀ a, key (f a) = key a) (same : as.map f = bs.map f) (k : String) :
    (as.find? (key · = k)).map f = (bs.find? (key · = k)).map f := by
  have hFind : ∀ xs : List α, (xs.find? (key · = k)).map f = (xs.map f).find? (key · = k) := by
    intro xs
    rw [List.find?_map]
    simp only [Function.comp_def, keeps]
  rw [hFind, hFind, same]

theorem exists_of_find?_eq_some (keeps : ∀ a, key (f a) = key a) (same : as.map f = bs.map f)
    {k : String} {b : α} (found : bs.find? (key · = k) = some b) :
    ∃ a, as.find? (key · = k) = some a ∧ f a = f b := by
  have hMap := map_find?_eq f key keeps same k
  rw [found] at hMap
  exact Option.map_eq_some_iff.1 hMap

theorem find?_eq_none_of_map_eq (keeps : ∀ a, key (f a) = key a) (same : as.map f = bs.map f)
    {k : String} (absent : bs.find? (key · = k) = none) : as.find? (key · = k) = none := by
  have hMap := map_find?_eq f key keeps same k
  rw [absent] at hMap
  exact Option.map_eq_none_iff.1 hMap

end

theorem Payload.types_unplaced (shape : Payload Slot Field) : shape.unplaced.types = shape.types := by
  cases shape with
  | unit => rfl
  | tuple slots => simp [unplaced, types, Slot.unplaced, Function.comp_def]
  | fields declared => simp [unplaced, types, Field.unplaced, Function.comp_def]

theorem Declaration.types_unplaced (d : Declaration) : d.unplaced.types = d.types := by
  obtain ⟨name, body, span⟩ := d
  cases body with
  | record fields =>
      simp [unplaced, Body.unplaced, types, Field.unplaced, Function.comp_def]
  | choice variants =>
      simp [unplaced, Body.unplaced, types, Variant.unplaced, Payload.types_unplaced,
        List.flatMap_map]

namespace Registry.Alike

variable {registry other : Registry}

theorem record {name : String} {d : Declaration} {fields : List Field} (alike : registry.Alike other)
    (found : registry.get? name = some d) (body : d.body = .record fields) :
    ∃ d' fields', other.get? name = some d' ∧ d'.body = .record fields' ∧
      fields'.map Field.unplaced = fields.map Field.unplaced := by
  obtain ⟨d', hFound, hSame⟩ :=
    exists_of_find?_eq_some Declaration.unplaced Declaration.name (fun _ => rfl) alike found
  have hBody := congrArg Declaration.body hSame
  simp only [Declaration.unplaced, body] at hBody
  cases hOther : d'.body with
  | record fields' =>
      rw [hOther] at hBody
      exact ⟨d', fields', hFound, hOther, Declaration.Body.record.inj hBody⟩
  | choice variants =>
      rw [hOther] at hBody
      cases hBody

theorem choice {enum name : String} {d : Declaration} {variants : List Variant} {variant : Variant}
    (alike : registry.Alike other) (found : registry.get? enum = some d)
    (body : d.body = .choice variants) (alternative : variants.find? (·.name = name) = some variant) :
    ∃ d' variants' variant', other.get? enum = some d' ∧ d'.body = .choice variants' ∧
      variants'.find? (·.name = name) = some variant' ∧
      variant'.shape.unplaced = variant.shape.unplaced := by
  obtain ⟨d', hFound, hSame⟩ :=
    exists_of_find?_eq_some Declaration.unplaced Declaration.name (fun _ => rfl) alike found
  have hBody := congrArg Declaration.body hSame
  simp only [Declaration.unplaced, body] at hBody
  cases hOther : d'.body with
  | record fields =>
      rw [hOther] at hBody
      cases hBody
  | choice variants' =>
      rw [hOther] at hBody
      obtain ⟨variant', hVariant, hAlike⟩ := exists_of_find?_eq_some Variant.unplaced Variant.name
        (fun _ => rfl) (Declaration.Body.choice.inj hBody) alternative
      exact ⟨d', variants', variant', hFound, hOther, hVariant, congrArg Variant.shape hAlike⟩

theorem unknown {name : String} (alike : registry.Alike other)
    (absent : registry.get? name = none) : other.get? name = none :=
  find?_eq_none_of_map_eq Declaration.unplaced Declaration.name (fun _ => rfl) alike absent

theorem declared {name : String} (alike : registry.Alike other)
    (declared : ∃ d ∈ registry.declarations, d.name = name) :
    ∃ d ∈ other.declarations, d.name = name := by
  obtain ⟨d, hMem, hName⟩ := declared
  have hUnplaced : d.unplaced ∈ other.declarations.map Declaration.unplaced := by
    rw [alike]
    exact List.mem_map_of_mem hMem
  obtain ⟨d', hOther, hSame⟩ := List.mem_map.1 hUnplaced
  have hSameName : d'.name = d.name := by
    simpa [Declaration.unplaced] using congrArg Declaration.name hSame
  exact ⟨d', hOther, hSameName.trans hName⟩

/-- References do not depend on places. -/
theorem resolved (alike : registry.Alike other) (resolved : registry.Resolved) :
    other.Resolved := by
  intro d mem type hType name refers
  have hUnplaced : d.unplaced ∈ registry.declarations.map Declaration.unplaced := by
    rw [← alike]
    exact List.mem_map_of_mem mem
  obtain ⟨old, hOld, hSame⟩ := List.mem_map.1 hUnplaced
  have hTypes : old.types = d.types := by
    rw [← old.types_unplaced, hSame, d.types_unplaced]
  exact alike.declared (resolved old hOld type (hTypes ▸ hType) name refers)

end Registry.Alike

/-! ### Literals -/

theorem Value.Rereads.part {value part : Value} (rereads : value.Rereads) (mem : part ∈ value.parts) :
    part.Rereads :=
  fun u holds => rereads u (.part mem holds)

/-- A literal with a keyword is printed with the keyword and denotes the same value. -/
theorem Options.denote_written {options : Options} {kind : Extended} {raw : String} {value : Value}
    {node : Node} (denotes : options.denote kind raw = .ok value) (rereads : value.Rereads)
    (written : value.WrittenAs node) :
    ∃ text span, node = ⟨.extended kind text, span⟩ ∧ options.denote kind text = .ok value := by
  rcases denote_eq_ok denotes with ⟨u, rfl, rfl, -⟩ | ⟨a, rfl, rfl, -⟩ | ⟨k, rfl, rfl, hParse⟩
  · cases written
    refine ⟨_, _, rfl, ?_⟩
    rw [denote, String.toList_ofList, rereads u .self]
    rfl
  · cases written
    refine ⟨_, _, rfl, ?_⟩
    rw [denote, String.toList_ofList, SocketAddress.parse_text]
    rfl
  · cases written
    refine ⟨_, _, rfl, ?_⟩
    rw [denote, String.toList_ofList, PublicKey.parse_text hParse]
    rfl

/-! ### Parts -/

section

variable {registry other : Registry} {options : Options}

/-- What is printed for a value that a written value becomes, becomes it again in the same
position. -/
def Node.Retypes (registry other : Registry) (options : Options) (node : Node) : Prop :=
  ∀ type? value printed, Node.Fits registry options type? node value → value.Rereads →
    value.WrittenAs printed → Node.Fits other options type? printed value

theorem Value.written_of_zip {values : List Value} {printed : List Node}
    (written : List.Forall₂ WrittenAs values printed) :
    printed.length = values.length ∧
      ∀ node value, (node, value) ∈ printed.zip values → value.WrittenAs node := by
  obtain ⟨hLength, hEach⟩ := List.forall₂_iff_zip.1 written.flip
  exact ⟨hLength, fun _ _ mem => hEach mem⟩

theorem Node.retypes_items (type? : Option TypeExpr) {nodes printed : List Node}
    {values : List Value} (ih : ∀ node ∈ nodes, node.Retypes registry other options)
    (lengths : nodes.length = values.length)
    (each : ∀ node value, (node, value) ∈ nodes.zip values →
      Node.Fits registry options type? node value)
    (rereads : ∀ value ∈ values, value.Rereads)
    (written : List.Forall₂ Value.WrittenAs values printed) :
    printed.length = values.length ∧ ∀ node value, (node, value) ∈ printed.zip values →
      Node.Fits other options type? node value := by
  obtain ⟨hLength, hWritten⟩ := Value.written_of_zip written
  refine ⟨hLength, fun node value mem => ?_⟩
  obtain ⟨original, hPair⟩ :=
    exists_of_mem_right lengths (fun _ _ pair => pair) value (List.of_mem_zip mem).2
  exact ih original (List.of_mem_zip hPair).1 type? value node (each _ _ hPair)
    (rereads value (List.of_mem_zip mem).2) (hWritten _ _ mem)

/-- The entries printed for fields, paired with them. -/
theorem Entry.written_of_zip {fields : List (String × Value)} {printed : List Entry}
    (keys : printed.map Entry.key = fields.map Prod.fst)
    (written : List.Forall₂ Value.WrittenAs (fields.map Prod.snd) (printed.map Entry.value)) :
    ∀ entry field, (entry, field) ∈ printed.zip fields →
      entry.key = field.1 ∧ field.2.WrittenAs entry.value := by
  obtain ⟨-, hKeys⟩ := Entry.keys_eq_iff.1 keys
  rw [List.forall₂_map_left_iff, List.forall₂_map_right_iff] at written
  obtain ⟨-, hEach⟩ := List.forall₂_iff_zip.1 written.flip
  exact fun entry field mem => ⟨hKeys entry field mem, hEach mem⟩

theorem Field.Takes.retyped {field declared : Field} {node printed : Node} {value : Value}
    (ih : node.Retypes registry other options) (same : declared.unplaced = field.unplaced)
    (takes : Field.Takes registry options field node value) (rereads : value.Rereads)
    (written : value.WrittenAs printed) : Field.Takes other options declared printed value := by
  obtain ⟨-, hType, hOptional⟩ := Field.eq_of_unplaced same
  cases takes with
  | typed typed =>
      have hTyped := ih (some field.type) value printed typed rereads written
      rw [← hType] at hTyped
      exact .typed hTyped
  | null optional =>
      cases written
      exact .null (hOptional.trans optional)

theorem Entry.Fill.retyped {fields declared : List Field} {entries printed : List Entry}
    {values : List (String × Value)}
    (ih : ∀ part ∈ entries.map Entry.value, part.Retypes registry other options)
    (same : declared.map Field.unplaced = fields.map Field.unplaced)
    (fill : Entry.Fill registry options fields entries values)
    (rereads : ∀ value ∈ values.map Prod.snd, value.Rereads)
    (keys : printed.map Entry.key = values.map Prod.fst)
    (written : List.Forall₂ Value.WrittenAs (values.map Prod.snd) (printed.map Entry.value)) :
    Entry.Fill other options declared printed values := by
  obtain ⟨present, known, oldKeys, each⟩ := fill
  obtain ⟨hLengths, hOldKeys⟩ := Entry.keys_eq_iff.1 oldKeys
  have hWritten := Entry.written_of_zip keys written
  have hKeys : printed.map Entry.key = entries.map Entry.key := keys.trans oldKeys.symm
  refine .intro (fun field mem required => ?_) (fun entry mem => ?_) keys ?_
  · have hUnplaced : field.unplaced ∈ fields.map Field.unplaced := by
      rw [← same]
      exact List.mem_map_of_mem mem
    obtain ⟨old, hOld, hSame⟩ := List.mem_map.1 hUnplaced
    obtain ⟨hName, -, hOptional⟩ := Field.eq_of_unplaced hSame
    obtain ⟨entry, hEntry, hKey⟩ := present old hOld (hOptional.trans required)
    have hMem : entry.key ∈ printed.map Entry.key := by
      rw [hKeys]
      exact List.mem_map_of_mem hEntry
    obtain ⟨found, hFound, hSameKey⟩ := List.mem_map.1 hMem
    exact ⟨found, hFound, by rw [hSameKey, hKey, hName]⟩
  · have hMem : entry.key ∈ entries.map Entry.key := by
      rw [← hKeys]
      exact List.mem_map_of_mem mem
    obtain ⟨old, hOld, hKey⟩ := List.mem_map.1 hMem
    obtain ⟨field, hField⟩ := known old hOld
    obtain ⟨found, hFound, -⟩ := exists_of_find?_eq_some Field.unplaced Field.name (fun _ => rfl)
      same hField
    rw [← hKey]
    exact ⟨found, hFound⟩
  · intro entry value field mem hField
    obtain ⟨old, hPair⟩ :=
      exists_of_mem_right hLengths (fun _ _ pair => pair) value (List.of_mem_zip mem).2
    obtain ⟨hKey, hValue⟩ := hWritten entry value mem
    have hSameKey : entry.key = old.key := hKey.trans (hOldKeys _ _ hPair).symm
    obtain ⟨oldField, hOldField, hSame⟩ := exists_of_find?_eq_some Field.unplaced Field.name
      (fun _ => rfl) same.symm hField
    rw [hSameKey] at hOldField
    have hNode : old.value.Retypes registry other options :=
      ih _ (List.mem_map_of_mem (List.of_mem_zip hPair).1)
    exact (each old value oldField hPair hOldField).retyped hNode hSame.symm
      (rereads _ (List.mem_map_of_mem (List.of_mem_zip mem).2)) hValue

/-- What is printed for the items of a tuple, slot by slot. -/
theorem Node.retypes_slots {slots declared : List Slot} {nodes printed : List Node}
    {values : List Value} (ih : ∀ node ∈ nodes, node.Retypes registry other options)
    (same : declared.map Slot.type = slots.map Slot.type) (arity : slots.length = nodes.length)
    (lengths : nodes.length = values.length)
    (each : ∀ slot node value, ((slot, node), value) ∈ (slots.zip nodes).zip values →
      Node.HasType registry options slot.type node value)
    (rereads : ∀ value ∈ values, value.Rereads)
    (written : List.Forall₂ Value.WrittenAs values printed) :
    ∀ slot node value, ((slot, node), value) ∈ (declared.zip printed).zip values →
      Node.HasType other options slot.type node value := by
  have hDeclared : declared.length = slots.length := by simpa using congrArg List.length same
  intro slot node value mem
  obtain ⟨i, hi, hGet⟩ := List.mem_iff_getElem.1 mem
  simp only [List.length_zip] at hi
  simp only [List.getElem_zip, Prod.mk.injEq] at hGet
  obtain ⟨⟨hSlot, hNode⟩, hValue⟩ := hGet
  have hOld : ((slots[i], nodes[i]), values[i]) ∈ (slots.zip nodes).zip values := by
    have hMem := List.getElem_mem (l := (slots.zip nodes).zip values) (n := i) (by simp; omega)
    simpa only [List.getElem_zip] using hMem
  have hType : slot.type = slots[i].type := by
    have hMap : (declared.map Slot.type)[i]? = (slots.map Slot.type)[i]? := by rw [same]
    rw [← hSlot]
    simpa [List.getElem?_eq_getElem (show i < declared.length by omega),
      List.getElem?_eq_getElem (show i < slots.length by omega)] using hMap
  have hWritten : value.WrittenAs node := by
    rw [← hNode, ← hValue]
    exact List.Forall₂.get written (by omega) (by omega)
  rw [hType]
  rw [hValue] at hOld
  exact ih _ (List.getElem_mem _) (some slots[i].type) value node (each _ _ _ hOld)
    (rereads value (List.of_mem_zip mem).2) hWritten

theorem Payload.HasShape.retyped {shape declared : Payload Slot Field}
    {payload : Payload Node Entry} {value : Payload Value (String × Value)} {enum name : String}
    {printed : Node} (ih : ∀ part ∈ payload.parts, part.Retypes registry other options)
    (same : declared.unplaced = shape.unplaced)
    (carried : Payload.HasShape registry options shape payload value)
    (rereads : (Value.variant enum name value).Rereads)
    (written : (Value.variant enum name value).WrittenAs printed) :
    ∃ payload' span, printed = ⟨.variant enum name payload', span⟩ ∧
      Payload.HasShape other options declared payload' value := by
  cases carried with
  | unit =>
      cases written
      cases declared with
      | unit => exact ⟨_, _, rfl, .unit⟩
      | tuple slots => cases same
      | fields fields => cases same
  | tuple arity lengths each =>
      cases written with
      | tuple written =>
      cases declared with
      | unit => cases same
      | fields fields => cases same
      | tuple slots =>
          have hTypes := congrArg (List.map Slot.type) (Payload.tuple.inj same)
          simp only [List.map_map] at hTypes
          have hDeclared := congrArg List.length hTypes
          simp only [List.length_map] at hDeclared
          have hLength := (Value.written_of_zip written).1
          refine ⟨_, _, rfl, .tuple (by omega) hLength ?_⟩
          exact Node.retypes_slots ih hTypes arity lengths each
            (fun part mem => rereads.part mem) written
  | fields block =>
      cases written with
      | fields keys written =>
      cases declared with
      | unit => cases same
      | tuple slots => cases same
      | fields fields =>
          exact ⟨_, _, rfl, .fields (block.retyped ih (Payload.fields.inj same)
            (fun part mem => rereads.part mem) keys written)⟩

theorem Node.Acceptable.retyped (alike : registry.Alike other) {form : Form} {span : Span}
    {value : Value} {printed : Node} (ih : ∀ part ∈ form.parts, part.Retypes registry other options)
    (acceptable : Node.Acceptable registry options ⟨form, span⟩ value) (rereads : value.Rereads)
    (written : value.WrittenAs printed) : Node.Acceptable other options printed value := by
  cases acceptable with
  | string | integer | float | boolean | null =>
      cases written
      constructor
  | extended denotes =>
      obtain ⟨text, span, rfl, hDenotes⟩ := Options.denote_written denotes rereads written
      exact .extended hDenotes
  | array lengths each homogeneous =>
      cases written with
      | array written =>
          obtain ⟨hLength, hEach⟩ := Node.retypes_items none ih lengths each
            (fun part mem => rereads.part mem) written
          exact .array hLength hEach homogeneous
  | object oldKeys each =>
      cases written with
      | object keys written =>
          obtain ⟨hLengths, -⟩ := Entry.keys_eq_iff.1 oldKeys
          have hWritten := Entry.written_of_zip keys written
          refine .object keys fun entry field mem => ?_
          obtain ⟨old, hPair⟩ :=
            exists_of_mem_right hLengths (fun _ _ pair => pair) field (List.of_mem_zip mem).2
          have hPart : field.2 ∈ Value.parts (.object none _) :=
            List.mem_map_of_mem (List.of_mem_zip mem).2
          exact ih old.value (List.mem_map_of_mem (List.of_mem_zip hPair).1) none field.2 entry.value
            (each old field hPair) (rereads.part hPart) (hWritten entry field mem).2
  | record found body block =>
      cases written with
      | object keys written =>
          obtain ⟨d, fields, hFound, hBody, hSame⟩ := alike.record found body
          exact .record hFound hBody
            (block.retyped ih hSame (fun part mem => rereads.part mem) keys written)
  | choice found body alternative carried =>
      obtain ⟨d, variants, variant, hFound, hBody, hVariant, hSame⟩ :=
        alike.choice found body alternative
      obtain ⟨payload, span, rfl, hCarried⟩ := carried.retyped ih hSame rereads written
      exact .choice hFound hBody hVariant hCarried

theorem Node.HasType.retyped (alike : registry.Alike other) {type : TypeExpr} {form : Form}
    {span : Span} {value : Value} {printed : Node}
    (ih : ∀ part ∈ form.parts, part.Retypes registry other options)
    (typed : Node.HasType registry options type ⟨form, span⟩ value) (rereads : value.Rereads)
    (written : value.WrittenAs printed) : Node.HasType other options type printed value := by
  cases typed with
  | string | integer | float | boolean =>
      cases written
      constructor
  | @widened n _ =>
      generalize Number.Binary64.ofInteger n = x at written ⊢
      cases written
      exact .float
  | quoted denotes | extended denotes =>
      obtain ⟨text, span, rfl, hDenotes⟩ := Options.denote_written denotes rereads written
      exact .extended hDenotes
  | array lengths each =>
      cases written with
      | array written =>
          obtain ⟨hLength, hEach⟩ := Node.retypes_items (some _) ih lengths each
            (fun part mem => rereads.part mem) written
          exact .array hLength hEach
  | record found body label block =>
      cases written with
      | object keys written =>
          obtain ⟨d, fields, hFound, hBody, hSame⟩ := alike.record found body
          exact .record hFound hBody label
            (block.retyped ih hSame (fun part mem => rereads.part mem) keys written)
  | choice found body alternative carried =>
      obtain ⟨d, variants, variant, hFound, hBody, hVariant, hSame⟩ :=
        alike.choice found body alternative
      obtain ⟨payload, span, rfl, hCarried⟩ := carried.retyped ih hSame rereads written
      exact .choice hFound hBody hVariant hCarried
  | undeclared unknown acceptable =>
      exact .undeclared (alike.unknown unknown) (acceptable.retyped alike ih rereads written)

/-- By induction on the written value, whose parts are printed and read again first. -/
theorem Node.retypes (alike : registry.Alike other) (node : Node) :
    node.Retypes registry other options := by
  induction node using Node.induct with
  | step form span ih =>
      intro type? value printed fits rereads written
      cases type? with
      | none => exact Node.Acceptable.retyped alike ih fits rereads written
      | some type => exact Node.HasType.retyped alike ih fits rereads written

end

end TypedConfig
