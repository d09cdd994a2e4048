import TypedConfig.Proofs.Grammar.Declarations
import TypedConfig.Proofs.Printing.Layouts
/-!
Printed declarations read as the same declarations up to their places.
-/
namespace TypedConfig

open Production Token

variable {file : String}

/-- The text of a construct that takes tokens is not empty. -/
theorem Production.exists_cons_of_reads {α : Type} {R : Production α} {goesOn : Prop} {a : α}
    {used : List Token} (isItem : R.IsItem)
    (reads : ∀ tokens, (goesOn → Unattached tokens) → R (used ++ tokens) a tokens) :
    ∃ t more, used = t :: more := by
  have hR := reads [⟨.mark .comma, .start⟩] fun _ => unattached_of_kind rfl (by simp)
  have hLength := isItem.length_lt hR
  cases used with
  | nil => simp at hLength
  | cons t more => exact ⟨t, more, rfl⟩

/-! ### Types -/

theorem Extended.keyword_of_ofKeyword? {word : String} {kind : Extended}
    (found : ofKeyword? word = some kind) : kind.keyword = word := by
  revert found
  fun_cases Extended.ofKeyword? word
  case case4 => exact nofun
  all_goals
    next hWord =>
    rintro ⟨⟩
    exact hWord.symm

theorem TypeExpr.text_ofWord (word : String) : (ofWord word).text = word := by
  fun_cases TypeExpr.ofWord word
  case case1 hWord | case2 hWord | case3 hWord | case4 hWord => exact hWord.symm
  case case5 kind hKeyword => exact Extended.keyword_of_ofKeyword? hKeyword
  case case6 => rfl

theorem TypeExpr.reads {room : Nat} {type : TypeExpr} (printable : type.Printable room) :
    Reads file (TypeExpr.Derives room) False type.text.toList (· = type) := by
  induction printable with
  | word isWord =>
      intro p rest delimited
      rw [text_ofWord]
      exact ⟨_, _, Spells.word isWord fun c mem => (delimited c mem).1, rfl, fun _ _ => .word rfl⟩
  | array inner ih =>
      intro p rest delimited
      obtain ⟨used, item, hSpells, rfl, hItem⟩ := ih (p.after ['[']) _ (delimited_closing .square rest)
      have hText : item.array.text.toList = '[' :: (item.text.toList ++ [']']) := by
        simp [TypeExpr.text]
      rw [hText]
      have hAll := Spells.mark_cons (.opening .square)
        (Spells.append hSpells (Spells.mark (.closing .square)))
      refine ⟨_, _, hAll, rfl, fun tokens _ => ?_⟩
      rw [List.cons_append, List.append_assoc]
      exact .array rfl (hItem _ nofun) rfl

theorem Slot.reads {s : Slot} (printable : s.type.Printable maxNesting) :
    Reads file (Slot.Derives file) False s.type.text.toList (fun s' => s'.unplaced = s.unplaced) := by
  intro p rest delimited
  obtain ⟨used, type, hSpells, rfl, hType⟩ := TypeExpr.reads printable p rest delimited
  obtain ⟨t, more, rfl⟩ := exists_cons_of_reads (TypeExpr.isItem_derives _) hType
  exact ⟨_, ⟨s.type, t.span file⟩, hSpells, rfl, fun tokens goesOn => .intro (hType tokens goesOn)⟩

/-! ### Fields -/

theorem Field.reads {f : Field} (printable : f.Printable) :
    Reads file (Field.Derives file) False f.source (fun f' => f'.unplaced = f.unplaced) := by
  obtain ⟨name, type, optional, span⟩ := f
  obtain ⟨hName, hType⟩ := printable
  intro p rest delimited
  cases optional with
  | false =>
      obtain ⟨used, type, hSpells, rfl, hDerives⟩ :=
        TypeExpr.reads hType (((p.after name.toList).after [':']).after [' ']) rest delimited
      have hAll := Spells.append (Spells.word hName (by rintro c ⟨⟩; decide))
        (Spells.mark_cons .colon (Spells.append Spells.space hSpells))
      have hText : Field.source ⟨name, type, false, span⟩ =
          name.toList ++ ':' :: ([' '] ++ type.text.toList) := by
        simp [Field.source]
      rw [hText]
      exact ⟨_, ⟨name, type, false, Token.span file ⟨.word name, p⟩⟩, hAll, rfl,
        fun tokens goesOn => .required rfl rfl (hDerives tokens goesOn)⟩
  | true =>
      obtain ⟨used, type, hSpells, rfl, hDerives⟩ := TypeExpr.reads hType
        ((((p.after name.toList).after ['?']).after [':']).after [' ']) rest delimited
      have hAll := Spells.append (Spells.word hName (by rintro c ⟨⟩; decide))
        (Spells.mark_cons .question
          (Spells.mark_cons .colon (Spells.append Spells.space hSpells)))
      have hText : Field.source ⟨name, type, true, span⟩ =
          name.toList ++ '?' :: ':' :: ([' '] ++ type.text.toList) := by
        simp [Field.source]
      rw [hText]
      exact ⟨_, ⟨name, type, true, Token.span file ⟨.word name, p⟩⟩, hAll, rfl,
        fun tokens goesOn => .optional rfl rfl rfl (hDerives tokens goesOn)⟩

theorem Field.eq_of_unplaced {f f' : Field} (same : f'.unplaced = f.unplaced) :
    f'.name = f.name ∧ f'.type = f.type ∧ f'.optional = f.optional := by
  simpa [Field.unplaced] using same

theorem Field.block_reads {fields : List Field} (depth : Nat)
    (nodup : (fields.map Field.name).Nodup) (printable : ∀ f ∈ fields, f.Printable) :
    Reads file (Field.Block file) False (Layout.block depth '{' '}' (fields.map Field.source))
      (fun fields' => fields'.map Field.unplaced = fields.map Field.unplaced) := by
  have hEach : ∀ f ∈ fields, Reads file (Field.Derives file) False f.source
      (fun f' => f'.unplaced = f.unplaced) := fun f mem => Field.reads (printable f mem)
  have hBlock := Reads.keyed depth hEach (.inl fun _ _ => id)
    (fun _ _ same => (Field.eq_of_unplaced same).1) nodup
  exact hBlock.mono fun fields' hAll => map_eq_of_forall₂ hAll

/-! ### Alternatives -/

/-- What an alternative carries is told from what follows by its bracket. -/
theorem Production.delimited_payload {text rest : List Char} (delimited : Delimited rest)
    (begins : text = [] ∨ text.head? = some '(' ∨ text.head? = some ' ') :
    Delimited (text ++ rest) := by
  cases text with
  | nil => exact delimited
  | cons c cs =>
      rcases begins with h | h | h
      · cases h
      · cases h
        exact delimited_cons (by decide)
      · cases h
        exact delimited_cons (by decide)

theorem Variant.shape_reads {shape : Payload Slot Field} (depth : Nat)
    (printable : shape.Printable) :
    Reads file (Production.Payload (Slot.Derives file) (Field.Block file)) (shape = .unit)
      (Variant.shapeSource depth shape) (fun shape' => shape'.unplaced = shape.unplaced) := by
  intro p rest delimited
  cases shape with
  | unit =>
      refine ⟨[], .unit, Spells.nil, rfl, fun tokens goesOn => ?_⟩
      obtain ⟨t, later, rfl, hRound, hBrace⟩ := goesOn rfl
      exact .unit hRound hBrace
  | tuple slots =>
      have hEach : ∀ s ∈ slots, Reads file (Slot.Derives file) False s.type.text.toList
          (fun s' => s'.unplaced = s.unplaced) := fun s mem => Slot.reads (printable.2 s mem)
      obtain ⟨used, slots', hSpells, hAll, hTuple⟩ :=
        Reads.tuple hEach printable.1 p rest delimited
      refine ⟨used, .tuple slots', hSpells, ?_, fun tokens _ => .tuple (hTuple tokens nofun)⟩
      exact congrArg Payload.tuple (map_eq_of_forall₂ hAll)
  | fields fields =>
      obtain ⟨used, fields', hSpells, hAll, hBlock⟩ :=
        Field.block_reads depth printable.1 printable.2 (p.after [' ']) rest delimited
      refine ⟨_, .fields fields', Spells.append Spells.space hSpells, ?_,
        fun tokens _ => .fields (hBlock tokens nofun)⟩
      exact congrArg Payload.fields hAll

theorem Variant.reads {v : Variant} {depth : Nat} (printable : v.Printable) :
    Reads file (Variant.Derives file) (v.shape = .unit) (v.source depth)
      (fun v' => v'.unplaced = v.unplaced) := by
  obtain ⟨name, shape, span⟩ := v
  obtain ⟨hName, hShape⟩ := printable
  intro p rest delimited
  obtain ⟨used, shape', hSpells, hSame, hPayload⟩ :=
    Variant.shape_reads depth hShape (p.after name.toList) rest delimited
  have hDelimited : Delimited (Variant.shapeSource depth shape ++ rest) := by
    apply delimited_payload delimited
    cases shape with
    | unit => exact .inl rfl
    | tuple slots => exact .inr (.inl rfl)
    | fields fields => exact .inr (.inr rfl)
  have hWord : Spells file p name.toList (Variant.shapeSource depth shape ++ rest) _ :=
    Spells.word hName fun c mem => (hDelimited c mem).1
  refine ⟨_, ⟨name, shape', Token.span file ⟨.word name, p⟩⟩, Spells.append hWord hSpells, ?_,
    fun tokens goesOn => .intro rfl (hPayload tokens goesOn)⟩
  simp only [Variant.unplaced]
  rw [hSame]

theorem Variant.apart (v : Variant) : (Variant.Derives file).Apart v := by
  intro input rest derives
  cases derives with
  | intro word _ => exact unattached_of_word word

theorem Variant.block_reads {variants : List Variant} (nodup : (variants.map Variant.name).Nodup)
    (printable : ∀ v ∈ variants, v.Printable) :
    Reads file (KeyedBlock Variant.name (Variant.Derives file)) False
      (Layout.block 0 '{' '}' (variants.map (Variant.source 1)))
      (fun variants' => variants'.map Variant.unplaced = variants.map Variant.unplaced) := by
  have hEach : ∀ v ∈ variants, Reads file (Variant.Derives file) (v.shape = .unit) (v.source 1)
      (fun v' => v'.unplaced = v.unplaced) := fun v mem => Variant.reads (printable v mem)
  have hName : ∀ ⦃v v' : Variant⦄, v'.unplaced = v.unplaced → v'.name = v.name :=
    fun v v' same => by simpa [Variant.unplaced] using congrArg Variant.name same
  have hBlock := Reads.keyed 0 hEach (.inr fun _ _ v' _ => v'.apart) hName nodup
  exact hBlock.mono fun variants' hAll => map_eq_of_forall₂ hAll

/-! ### Whole declarations -/

/-- The mark, the keyword and the name in front of a block. -/
theorem Declaration.header_reads {α : Type} {R : Production α} {text : List Char} {P : α → Prop}
    {keyword name : String} (hKeyword : IsWord keyword) (hName : IsWord name)
    (reads : Reads file R False text P) (p : Position) {rest : List Char}
    (delimited : Delimited rest) :
    ∃ u v used a, u.kind = .word keyword ∧ v.kind = .word name ∧
      Spells file p ('@' :: (keyword.toList ++ ' ' :: (name.toList ++ ' ' :: text))) rest
        (⟨.mark .atSign, p⟩ :: u :: v :: used) ∧
      P a ∧ ∀ tokens, R (used ++ tokens) a tokens := by
  have hSpace : ∀ more, ∀ c ∈ (' ' :: more : List Char).head?, Lexeme.isWordPart c = false := by
    rintro more c ⟨⟩
    decide
  obtain ⟨used, a, hSpells, hP, hR⟩ := reads
    (((((p.after ['@']).after keyword.toList).after [' ']).after name.toList).after [' ']) rest
    delimited
  have hAll := Spells.mark_cons .atSign (Spells.append (Spells.word hKeyword (hSpace _))
    (Spells.append Spells.space
      (Spells.append (Spells.word hName (hSpace _)) (Spells.append Spells.space hSpells))))
  exact ⟨_, _, used, a, rfl, rfl, hAll, hP, fun tokens => hR tokens nofun⟩

theorem Declaration.reads {d : Declaration} (printable : d.Printable) :
    Reads file (Declaration.Derives file) False d.source (fun d' => d'.unplaced = d.unplaced) := by
  obtain ⟨name, body, span⟩ := d
  obtain ⟨hName, hBody⟩ := printable
  intro p rest delimited
  cases body with
  | record fields =>
      have hKeyword : IsWord "type" := isWord_of_all rfl (by decide) (by decide)
      obtain ⟨u, v, used, fields', hType, hWord, hSpells, hSame, hBlock⟩ :=
        header_reads hKeyword hName (Field.block_reads 0 hBody.1 hBody.2) p delimited
      have hText : Declaration.source ⟨name, .record fields, span⟩ = '@' :: ("type".toList ++ ' ' ::
          (name.toList ++ ' ' :: Layout.block 0 '{' '}' (fields.map Field.source))) := by
        simp [Declaration.source, Declaration.keyword, Declaration.Body.keyword]
      rw [hText]
      refine ⟨_, ⟨name, .record fields', Token.span file ⟨.mark .atSign, p⟩⟩, hSpells, ?_,
        fun tokens _ => .record rfl hType hWord (hBlock tokens)⟩
      simp only [Declaration.unplaced, Declaration.Body.unplaced]
      rw [hSame]
  | choice variants =>
      have hKeyword : IsWord "enum" := isWord_of_all rfl (by decide) (by decide)
      obtain ⟨u, v, used, variants', hEnum, hWord, hSpells, hSame, hBlock⟩ :=
        header_reads hKeyword hName (Variant.block_reads hBody.2.1 hBody.2.2) p delimited
      have hText : Declaration.source ⟨name, .choice variants, span⟩ = '@' :: ("enum".toList ++ ' ' ::
          (name.toList ++ ' ' :: Layout.block 0 '{' '}' (variants.map (Variant.source 1)))) := by
        simp [Declaration.source, Declaration.keyword, Declaration.Body.keyword]
      rw [hText]
      have hNonempty : variants' ≠ [] := by
        rintro rfl
        exact hBody.1 (List.map_eq_nil_iff.1 hSame.symm)
      refine ⟨_, ⟨name, .choice variants', Token.span file ⟨.mark .atSign, p⟩⟩, hSpells, ?_,
        fun tokens _ => .choice rfl hEnum hWord (hBlock tokens) hNonempty⟩
      simp only [Declaration.unplaced, Declaration.Body.unplaced]
      rw [hSame]

/-! ### Places do not show -/

theorem Field.source_unplaced (f : Field) : f.unplaced.source = f.source := rfl

theorem Variant.source_unplaced (depth : Nat) (v : Variant) :
    v.unplaced.source depth = v.source depth := by
  obtain ⟨name, shape, span⟩ := v
  cases shape with
  | unit => rfl
  | tuple slots =>
      simp [Variant.source, Variant.unplaced, Payload.unplaced, Variant.shapeSource, Slot.unplaced,
        Function.comp_def]
  | fields fields =>
      simp [Variant.source, Variant.unplaced, Payload.unplaced, Variant.shapeSource,
        Field.source_unplaced, Function.comp_def]

/-- The text of a declaration does not depend on places. -/
theorem Declaration.source_unplaced (d : Declaration) : d.unplaced.source = d.source := by
  obtain ⟨name, body, span⟩ := d
  cases body with
  | record fields =>
      simp [Declaration.source, Declaration.unplaced, Declaration.Body.unplaced,
        Declaration.keyword, Declaration.Body.keyword, Field.source_unplaced, Function.comp_def]
  | choice variants =>
      simp [Declaration.source, Declaration.unplaced, Declaration.Body.unplaced,
        Declaration.keyword, Declaration.Body.keyword, Variant.source_unplaced, Function.comp_def]

end TypedConfig
