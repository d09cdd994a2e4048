import TypedConfig.Proofs.Grammar.Values
import TypedConfig.Proofs.Printing.Declarations
import TypedConfig.Proofs.Printing.Floats
/-!
Printed values read as written values that stand for them. The induction is on the room for nested
values, which reading goes down by one for each level, as the grammar does.
-/
namespace TypedConfig

open Production Token

variable {file : String}

/-! ### The parts of a text -/

theorem Value.itemSources_eq_map (depth : Nat) (values : List Value) :
    itemSources depth values = values.map (source depth) := by
  induction values with
  | nil => rfl
  | cons value values ih => rw [itemSources, ih, List.map_cons]

/-- A field on its line. -/
def Value.fieldSource (depth : Nat) (field : String × Value) : List Char :=
  field.1.toList ++ ':' :: ' ' :: field.2.source depth

theorem Value.fieldSources_eq_map (depth : Nat) (fields : List (String × Value)) :
    fieldSources depth fields = fields.map (fieldSource depth) := by
  induction fields with
  | nil => rfl
  | cons field fields ih => rw [fieldSources, ih, List.map_cons, fieldSource]

/-! ### Nodes and entries -/

theorem Node.derives_inside (file : String) (room : Nat) : (Node.Derives file room).Inside :=
  (Node.parserAt_accepts room).1.inside

/-- A form that is read is read as a node with that form. -/
theorem Node.reads_of_form {room : Nat} {goesOn : Prop} {text : List Char} {P : Form → Prop}
    (reads : Reads file (Form.Derives file (Node.Derives file room)) goesOn text P) :
    Reads file (Node.Derives file (room + 1)) goesOn text (fun node => P node.form) := by
  intro p rest delimited
  obtain ⟨used, form, hSpells, hP, hForm⟩ := reads p rest delimited
  obtain ⟨t, more, rfl⟩ := exists_cons_of_reads (Form.isItem_derives (Node.derives_inside file room)) hForm
  refine ⟨_, ⟨form, t.span file⟩, hSpells, hP, fun tokens goesOn => ?_⟩
  refine ⟨fun u hu => ?_, hForm tokens goesOn⟩
  cases hu
  rfl

theorem Entry.reads {V : Production Node} {depth : Nat} {field : String × Value}
    (isWord : IsWord field.1)
    (reads : Reads file V field.2.GoesOn (field.2.source depth) field.2.WrittenAs) :
    Reads file (Entry.Derives file V) field.2.GoesOn (Value.fieldSource depth field)
      (fun entry => entry.key = field.1 ∧ field.2.WrittenAs entry.value) := by
  obtain ⟨key, value⟩ := field
  intro p rest delimited
  obtain ⟨used, node, hSpells, hNode, hV⟩ :=
    reads (((p.after key.toList).after [':']).after [' ']) rest delimited
  have hAll := Spells.append (Spells.word isWord (by rintro c ⟨⟩; decide))
    (Spells.mark_cons .colon (Spells.append Spells.space hSpells))
  exact ⟨_, ⟨key, Token.span file ⟨.word key, p⟩, node⟩, hAll, ⟨rfl, hNode⟩,
    fun tokens goesOn => .intro rfl rfl (hV tokens goesOn)⟩

theorem Entry.apart {V : Production Node} (entry : Entry) : (Entry.Derives file V).Apart entry := by
  intro input rest derives
  cases derives with
  | intro word _ _ => exact unattached_of_word word

/-- The entries of a block are those of the fields. -/
theorem Entry.block_reads {V : Production Node} {fields : List (String × Value)} (depth : Nat)
    (keyed : Value.Keyed fields)
    (each : ∀ field ∈ fields,
      Reads file V field.2.GoesOn (field.2.source (depth + 1)) field.2.WrittenAs) :
    Reads file (Entry.Block file V) False
      (Layout.block depth '{' '}' (Value.fieldSources (depth + 1) fields))
      (fun entries => entries.map Entry.key = fields.map Prod.fst ∧
        List.Forall₂ Value.WrittenAs (fields.map Prod.snd) (entries.map Entry.value)) := by
  have hEach : ∀ field ∈ fields, Reads file (Entry.Derives file V) field.2.GoesOn
      (Value.fieldSource (depth + 1) field)
      (fun entry => entry.key = field.1 ∧ field.2.WrittenAs entry.value) :=
    fun field mem => Entry.reads (keyed.2 field mem) (each field mem)
  have hBlock := Reads.keyed depth hEach (.inr fun _ _ entry _ => entry.apart)
    (fun _ _ written => written.1) keyed.1
  rw [Value.fieldSources_eq_map]
  refine hBlock.mono fun entries hAll => ⟨?_, ?_⟩
  · exact map_eq_of_forall₂ (hAll.imp fun _ _ written => written.1)
  · rw [List.forall₂_map_left_iff, List.forall₂_map_right_iff]
    exact hAll.imp fun _ _ written => written.2

theorem Entry.block_isItem {V : Production Node} (inside : V.Inside) :
    (Entry.Block file V).IsItem := by
  intro input entries rest block
  obtain ⟨t, later, rfl, opening, leaves⟩ := Entry.begins_block inside block
  exact ⟨t, later, rfl, by simp [Token.Kind.BeginsItem, opening], leaves⟩

/-- A value that is no bare object does not begin with the bracket of a payload. -/
theorem Node.apart_of_written {room : Nat} {value : Value} {node : Node}
    (written : value.WrittenAs node) (labelled : ¬ value.IsBare) :
    (Node.Derives file room).Apart node := by
  intro input rest derives
  cases room with
  | zero => exact derives.elim
  | succ room =>
      obtain ⟨-, hForm⟩ := derives
      obtain ⟨form, span⟩ := node
      cases hForm with
      | string kind => exact ⟨_, _, rfl, by simp [kind], by simp [kind]⟩
      | integer kind => exact ⟨_, _, rfl, by simp [kind], by simp [kind]⟩
      | float kind _ => exact ⟨_, _, rfl, by simp [kind], by simp [kind]⟩
      | true kind | false kind | null kind => exact unattached_of_word kind
      | annotated kind _ _ | extended kind _ _ _ _ | variant kind _ _ _ _ =>
          exact unattached_of_word kind
      | array block =>
          obtain ⟨opening, -⟩ := block
          exact ⟨_, _, rfl, by simp [opening], by simp [opening]⟩
      | object block =>
          cases written with
          | object keys each => exact absurd ⟨_, rfl⟩ labelled

/-! ### Forms -/

namespace Form

variable {V : Production Node}

theorem string_reads (text : String) :
    Reads file (Form.Derives file V) False (Text.quote text.toList) (· = .string text) := by
  intro p rest _
  refine ⟨_, _, Spells.quoted text.toList, rfl, fun tokens _ => .string ?_⟩
  rw [String.ofList_toList]

theorem integer_reads (n : Int64) :
    Reads file (Form.Derives file V) False (Number.writeInteger n) (· = .integer n) :=
  fun _ _ delimited => ⟨_, _, Spells.integer n delimited, rfl, fun _ _ => .integer rfl⟩

theorem float_reads {x : Number.Binary64} (finite : x.isFinite = true) :
    Reads file (Form.Derives file V) False (x.write .source) (· = .float x) := by
  intro p rest delimited
  obtain ⟨sign, whole, part, hText, hSign, hWhole, hPart⟩ :=
    Number.Binary64.write_source_shape finite
  have hReads := Number.Binary64.read_write_source finite
  rw [hText] at hReads ⊢
  refine ⟨_, _, Spells.fraction hSign hWhole hPart hReads finite delimited, rfl,
    fun tokens _ => .float rfl ?_⟩
  rw [String.toList_ofList]
  exact hReads

/-- A word that is a value by itself. -/
theorem literal_reads {word : String} {form : Form} (isWord : IsWord word)
    (derives : ∀ t rest, t.kind = .word word → Form.Derives file V (t :: rest) form rest) :
    Reads file (Form.Derives file V) False word.toList (· = form) :=
  fun _ _ delimited => ⟨_, _, Spells.word isWord fun c mem => (delimited c mem).1, rfl,
    fun tokens _ => derives _ tokens rfl⟩

theorem extended_reads (kind : Extended) (raw : List Char) :
    Reads file (Form.Derives file V) False (Extended.source kind raw)
      (· = .extended kind (String.ofList raw)) := by
  intro p rest _
  have hWord : IsWord kind.keyword := by
    cases kind with
    | url => exact isWord_of_all rfl (by decide) (by decide)
    | socket => exact isWord_of_all rfl (by decide) (by decide)
    | pubkey => exact isWord_of_all rfl (by decide) (by decide)
  have hKnown : Extended.ofKeyword? kind.keyword = some kind := by
    cases kind <;> decide
  have hAll : Spells file p (kind.keyword.toList ++ '(' :: (Text.quote raw ++ [')'])) rest _ :=
    Spells.append (Spells.word hWord (by rintro c ⟨⟩; decide))
      (Spells.mark_cons (.opening .round)
        (Spells.append (Spells.quoted raw) (Spells.mark (.closing .round))))
  have hText : Extended.source kind raw =
      kind.keyword.toList ++ '(' :: (Text.quote raw ++ [')']) := by
    simp [Extended.source]
  rw [hText]
  exact ⟨_, _, hAll, rfl, fun tokens _ => .extended rfl hKnown rfl rfl rfl⟩

theorem array_reads {text : List Char} {P : List Node → Prop}
    (block : Reads file (Production.Block .square V) False text P) :
    Reads file (Form.Derives file V) False text (fun form => ∃ items, form = .array items ∧ P items) := by
  intro p rest delimited
  obtain ⟨used, items, hSpells, hP, hBlock⟩ := block p rest delimited
  exact ⟨used, _, hSpells, ⟨items, rfl, hP⟩, fun tokens goesOn => .array (hBlock tokens goesOn)⟩

theorem object_reads {text : List Char} {P : List Entry → Prop} (inside : V.Inside)
    (block : Reads file (Entry.Block file V) False text P) :
    Reads file (Form.Derives file V) False text
      (fun form => ∃ entries opened, form = .object none entries opened ∧ P entries) := by
  intro p rest delimited
  obtain ⟨used, entries, hSpells, hP, hBlock⟩ := block p rest delimited
  obtain ⟨t, more, rfl⟩ := exists_cons_of_reads (Entry.block_isItem inside) hBlock
  exact ⟨_, _, hSpells, ⟨entries, t.span file, rfl, hP⟩,
    fun tokens goesOn => .object (hBlock tokens goesOn)⟩

theorem annotated_reads {name : String} {text : List Char} {P : List Entry → Prop}
    (inside : V.Inside) (label : Value.IsLabel name)
    (block : Reads file (Entry.Block file V) False text P) :
    Reads file (Form.Derives file V) False (name.toList ++ ' ' :: text)
      (fun form => ∃ entries opened, form = .object (some name) entries opened ∧ P entries) := by
  intro p rest delimited
  obtain ⟨used, entries, hSpells, hP, hBlock⟩ :=
    block ((p.after name.toList).after [' ']) rest delimited
  obtain ⟨t, more, rfl⟩ := exists_cons_of_reads (Entry.block_isItem inside) hBlock
  have hAll := Spells.append (Spells.word label.1 (by rintro c ⟨⟩; decide))
    (Spells.append Spells.space hSpells)
  exact ⟨_, _, hAll, ⟨entries, t.span file, rfl, hP⟩,
    fun tokens goesOn => .annotated rfl label.2 (hBlock tokens goesOn)⟩

theorem variant_reads {enum name : String} {goesOn : Prop} {text : List Char}
    {P : Payload Node Entry → Prop} (label : Value.IsLabel enum) (isWord : IsWord name)
    (begins : text = [] ∨ text.head? = some '(' ∨ text.head? = some ' ')
    (payload : Reads file (Production.Payload V (Entry.Block file V)) goesOn text P) :
    Reads file (Form.Derives file V) goesOn ((Value.variantPath enum name).toList ++ text)
      (fun form => ∃ payload, form = .variant enum name payload ∧ P payload) := by
  intro p rest delimited
  obtain ⟨used, payload', hSpells, hP, hPayload⟩ :=
    payload (((p.after enum.toList).after ['.']).after name.toList) rest delimited
  have hDelimited := delimited_payload delimited begins
  have hAll := Spells.append (Spells.word label.1 (by rintro c ⟨⟩; decide))
    (Spells.mark_cons .dot
      (Spells.append (Spells.word isWord fun c mem => (hDelimited c mem).1) hSpells))
  have hText : (Value.variantPath enum name).toList ++ text =
      enum.toList ++ '.' :: (name.toList ++ text) := by
    simp [Value.variantPath]
  rw [hText]
  exact ⟨_, _, hAll, ⟨payload', rfl, hP⟩,
    fun tokens goesOn => .variant rfl label.2 rfl rfl (hPayload tokens goesOn)⟩

end Form

/-! ### Values -/

theorem Value.reads_of_form {room : Nat} {value : Value} {ends : Prop} {text : List Char}
    {P : Form → Prop} (reads : Reads file (Form.Derives file (Node.Derives file room)) ends text P)
    (imp : ends → value.GoesOn) (written : ∀ form span, P form → value.WrittenAs ⟨form, span⟩) :
    Reads file (Node.Derives file (room + 1)) value.GoesOn text value.WrittenAs := by
  refine ((Node.reads_of_form reads).guard imp).mono fun node h => ?_
  obtain ⟨form, span⟩ := node
  exact written form span h

theorem Value.reads_of_scalar {room : Nat} {value : Value} {text : List Char} {form : Form}
    (reads : Reads file (Form.Derives file (Node.Derives file room)) False text (· = form))
    (written : ∀ span, value.WrittenAs ⟨form, span⟩) :
    Reads file (Node.Derives file (room + 1)) value.GoesOn text value.WrittenAs := by
  refine reads_of_form reads nofun fun form' span h => ?_
  rw [h]
  exact written span

section

variable {room : Nat}
  (ih : ∀ {value : Value} (depth : Nat), value.Printable room →
    Reads file (Node.Derives file room) value.GoesOn (value.source depth) value.WrittenAs)

include ih

theorem Value.array_reads {items : List Value} {depth : Nat} (spelled : (array items).Spelled)
    (printable : ∀ item ∈ items, item.Printable room) :
    Reads file (Production.Block .square (Node.Derives file room)) False
      ((array items).source depth) (List.Forall₂ WrittenAs items) := by
  rw [source]
  split
  · next hBlock =>
    rw [itemSources_eq_map]
    apply Reads.block (b := .square) depth fun item mem => ih _ (printable item mem)
    rcases spelled hBlock with hClosed | hLabelled
    · exact .inl hClosed
    · exact .inr fun item mem node written => Node.apart_of_written written (hLabelled item mem)
  · next hInline =>
    rw [itemSources_eq_map]
    exact Reads.line (b := .square) fun item mem => ih _ (printable item mem)

theorem Value.block_reads {fields : List (String × Value)} (depth : Nat) (keyed : Keyed fields)
    (printable : ∀ part ∈ fields.map Prod.snd, part.Printable room) :
    Reads file (Entry.Block file (Node.Derives file room)) False
      (Layout.block depth '{' '}' (fieldSources (depth + 1) fields))
      (fun entries => entries.map Entry.key = fields.map Prod.fst ∧
        List.Forall₂ WrittenAs (fields.map Prod.snd) (entries.map Entry.value)) :=
  Entry.block_reads depth keyed fun _ mem => ih _ (printable _ (List.mem_map_of_mem mem))

theorem Value.payload_reads {payload : Payload Value (String × Value)} (depth : Nat)
    (filled : ∀ items, payload = .tuple items → items ≠ [])
    (keyed : ∀ fields, payload = .fields fields → Keyed fields)
    (printable : ∀ part ∈ payloadParts payload, part.Printable room) (enum name : String) :
    Reads file (Production.Payload (Node.Derives file room)
        (Entry.Block file (Node.Derives file room))) (payload = .unit)
      (payloadSource depth payload)
      (fun written => ∀ span,
        (variant enum name payload).WrittenAs ⟨.variant enum name written, span⟩) := by
  intro p rest delimited
  cases payload with
  | unit =>
      refine ⟨[], .unit, Spells.nil, fun _ => .unit, fun tokens goesOn => ?_⟩
      obtain ⟨t, later, rfl, hRound, hBrace⟩ := goesOn rfl
      exact .unit hRound hBrace
  | tuple items =>
      rw [payloadSource, itemSources_eq_map]
      obtain ⟨used, nodes, hSpells, hAll, hTuple⟩ := Reads.tuple
        (fun item mem => ih depth (printable item mem)) (filled items rfl) p rest delimited
      exact ⟨used, .tuple nodes, hSpells, fun _ => .tuple hAll,
        fun tokens _ => .tuple (hTuple tokens nofun)⟩
  | fields fields =>
      obtain ⟨used, entries, hSpells, ⟨hKeys, hAll⟩, hBlock⟩ :=
        Value.block_reads ih depth (keyed fields rfl) printable (p.after [' ']) rest delimited
      exact ⟨_, .fields entries, Spells.append Spells.space hSpells, fun _ => .fields hKeys hAll,
        fun tokens _ => .fields (hBlock tokens nofun)⟩

theorem Value.object_reads {typeName : Option String} {fields : List (String × Value)} (depth : Nat)
    (spelled : (object typeName fields).Spelled)
    (printable : ∀ part ∈ fields.map Prod.snd, part.Printable room) :
    Reads file (Node.Derives file (room + 1)) (object typeName fields).GoesOn
      ((object typeName fields).source depth) (object typeName fields).WrittenAs := by
  have hInside := Node.derives_inside file room
  have hBlock := Value.block_reads ih depth spelled.2 printable
  cases typeName with
  | none =>
      refine reads_of_form (Form.object_reads hInside hBlock) nofun fun form span h => ?_
      obtain ⟨entries, opened, rfl, hKeys, hAll⟩ := h
      exact .object hKeys hAll
  | some name =>
      have hText : (object (some name) fields).source depth =
          name.toList ++ ' ' :: Layout.block depth '{' '}' (fieldSources (depth + 1) fields) := by
        simp [source]
      rw [hText]
      refine reads_of_form (Form.annotated_reads hInside (spelled.1 name rfl) hBlock) nofun
        fun form span h => ?_
      obtain ⟨entries, opened, rfl, hKeys, hAll⟩ := h
      exact .object hKeys hAll

theorem Value.variant_reads {enum name : String} {payload : Payload Value (String × Value)}
    (depth : Nat) (spelled : (variant enum name payload).Spelled)
    (printable : ∀ part ∈ payloadParts payload, part.Printable room) :
    Reads file (Node.Derives file (room + 1)) (variant enum name payload).GoesOn
      ((variant enum name payload).source depth) (variant enum name payload).WrittenAs := by
  obtain ⟨hLabel, hName, hPayload⟩ := spelled
  have hBegins : payloadSource depth payload = [] ∨
      (payloadSource depth payload).head? = some '(' ∨
      (payloadSource depth payload).head? = some ' ' := by
    cases payload with
    | unit => exact .inl rfl
    | tuple items => exact .inr (.inl rfl)
    | fields fields => exact .inr (.inr rfl)
  have hReads := Value.payload_reads ih depth
    (fun items h => by subst h; exact hPayload) (fun fields h => by subst h; exact hPayload)
    printable enum name
  refine reads_of_form (Form.variant_reads hLabel hName hBegins hReads) ?_ fun form span h => ?_
  · rintro rfl
    exact ⟨enum, name, rfl⟩
  · obtain ⟨written, rfl, hAll⟩ := h
    exact hAll span

end

/-- A printed value is read as a written value that stands for it. -/
theorem Value.reads {room : Nat} {value : Value} (depth : Nat) (printable : value.Printable room) :
    Reads file (Node.Derives file room) value.GoesOn (value.source depth) value.WrittenAs := by
  induction room generalizing value depth with
  | zero => exact printable.elim
  | succ room ih =>
      obtain ⟨hSpelled, hParts⟩ := printable
      cases value with
      | string text => exact reads_of_scalar (Form.string_reads text) fun _ => .string
      | integer n => exact reads_of_scalar (Form.integer_reads n) fun _ => .integer
      | float x => exact reads_of_scalar (Form.float_reads hSpelled) fun _ => .float
      | boolean b =>
          apply reads_of_scalar ?_ fun _ => .boolean
          cases b with
          | true =>
              exact Form.literal_reads (isWord_of_all rfl (by decide) (by decide))
                fun _ _ kind => .true kind
          | false =>
              exact Form.literal_reads (isWord_of_all rfl (by decide) (by decide))
                fun _ _ kind => .false kind
      | null =>
          apply reads_of_scalar ?_ fun _ => .null
          exact Form.literal_reads (isWord_of_all rfl (by decide) (by decide))
            fun _ _ kind => .null kind
      | url u => exact reads_of_scalar (Form.extended_reads .url u.text) fun _ => .url
      | socket a => exact reads_of_scalar (Form.extended_reads .socket a.text) fun _ => .socket
      | pubkey k => exact reads_of_scalar (Form.extended_reads .pubkey k.text) fun _ => .pubkey
      | array items =>
          refine reads_of_form (Form.array_reads (Value.array_reads ih hSpelled hParts)) nofun
            fun form span h => ?_
          obtain ⟨nodes, rfl, hAll⟩ := h
          exact .array hAll
      | object typeName fields => exact Value.object_reads ih depth hSpelled hParts
      | variant enum name payload => exact Value.variant_reads ih depth hSpelled hParts

end TypedConfig
