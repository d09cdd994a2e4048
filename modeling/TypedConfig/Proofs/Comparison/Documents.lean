import TypedConfig.Proofs.Comparison.Reading
import TypedConfig.Proofs.Printing
/-!
Two source texts whose tokens are of the same kinds, apart from the paths in directives, are read as
documents that are the same but for places and these paths, or are both rejected for reasons of the
same code.
-/
namespace TypedConfig

open TypedConfig.Parser

variable {Q : String → String → Prop} {K : Cursor → Prop}

/-! ### Declarations -/

theorem TypeExpr.parserAt_alike (depth : Nat) :
    DoAlike Q K Eq (parserAt depth) (parserAt depth) := by
  induction depth generalizing K with
  | zero => exact .here fun _ _ => .fail rfl
  | succ depth ih =>
      rw [parserAt]
      refine .kind fun k => ?_
      split
      · refine .here fun _ _ => .advance (fun c known => by simp [known.2]) ?_
        refine ih.bind fun item item' same => .atClosing fun closed => ?_
        cases closed with
        | true => exact .advance (fun c known => known rfl) (.pure (by rw [same]))
        | false => exact .unexpected
      · exact .advance (fun c known => by simp [known.2]) (.pure rfl)
      · exact .unexpected

theorem Slot.parser_alike :
    DoAlike Q K (fun s s' => s.unplaced = s'.unplaced) Slot.parser Slot.parser :=
  .here fun _ _ => (TypeExpr.parserAt_alike _).bind fun _ _ same => .pure (by simp [unplaced, same])

/-- Whether a name or a key is among those before does not depend on places. -/
theorem any_key_iff {α β : Type} {R : α → β → Prop} {key : α → String} {key' : β → String}
    (keys : ∀ a b, R a b → key a = key' b) {as : List α} {bs : List β}
    (each : List.Forall₂ R as bs) (k : String) :
    as.any (key · = k) = true ↔ bs.any (key' · = k) = true := by
  induction each with
  | nil => rfl
  | cons first _ ih => simp only [List.any_cons, Bool.or_eq_true, ih, keys _ _ first]

theorem Field.parser_alike {before before' : List Field}
    (passed : List.Forall₂ (fun f f' => f.unplaced = f'.unplaced) before before') :
    DoAlike Q K (fun f f' => f.unplaced = f'.unplaced) (Field.parser before)
      (Field.parser before') := by
  refine .here fun span span' => DoAlike.word.bind ?_
  rintro name _ rfl
  refine (DoAlike.optionalMark (by decide)).bind ?_
  rintro optional _ rfl
  refine (DoAlike.mark (by decide)).bind fun _ _ _ => (TypeExpr.parserAt_alike _).bind ?_
  rintro type _ rfl
  exact .ite (any_key_iff (fun _ _ same => congrArg Field.name same) passed name) (.fail rfl)
    (.pure rfl)

theorem Variant.shapeParser_alike :
    DoAlike Q K (fun s s' => s.unplaced = s'.unplaced) shapeParser shapeParser := by
  refine .kind fun k => ?_
  split
  · exact (DoAlike.tuple Slot.parser_alike).bind fun slots slots' same =>
      .pure (congrArg Payload.tuple (map_eq_map_iff_forall₂.2 same))
  · exact (DoAlike.block fun _ _ => Field.parser_alike).bind fun fields fields' same =>
      .pure (congrArg Payload.fields (map_eq_map_iff_forall₂.2 same))
  · exact .pure rfl

theorem Variant.parser_alike {before before' : List Variant}
    (passed : List.Forall₂ (fun v v' => v.unplaced = v'.unplaced) before before') :
    DoAlike Q K (fun v v' => v.unplaced = v'.unplaced) (Variant.parser before)
      (Variant.parser before') := by
  refine .here fun span span' => DoAlike.word.bind ?_
  rintro name _ rfl
  refine Variant.shapeParser_alike.bind fun shape shape' same => ?_
  exact .ite (any_key_iff (fun _ _ same => congrArg Variant.name same) passed name) (.fail rfl)
    (.pure (by simp only [Variant.unplaced, same]))

namespace Declaration

theorem choiceParser_alike :
    DoAlike Q K (List.Forall₂ fun v v' => v.unplaced = v'.unplaced) choiceParser choiceParser := by
  refine .here fun opened opened' => (DoAlike.mark (by decide)).bind fun _ _ _ => ?_
  refine .kind fun k => ?_
  exact .ite .rfl .unexpected (.itemsFrom (fun _ _ => Variant.parser_alike) .nil)

theorem parser_alike : DoAlike Q K (fun d d' => d.unplaced = d'.unplaced) parser parser := by
  refine .here fun span span' => (DoAlike.mark (by decide)).bind fun _ _ _ => ?_
  refine .kind fun k => ?_
  split
  · refine .advance (fun c known => by simp [known.2]) (DoAlike.word.bind ?_)
    rintro name _ rfl
    refine choiceParser_alike.bind fun variants variants' same => .pure ?_
    simp only [unplaced, Body.unplaced, map_eq_map_iff_forall₂.2 same]
  · refine .advance (fun c known => by simp [known.2]) (DoAlike.word.bind ?_)
    rintro name _ rfl
    refine (DoAlike.block fun _ _ => Field.parser_alike).bind fun fields fields' same => .pure ?_
    simp only [unplaced, Body.unplaced, map_eq_map_iff_forall₂.2 same]
  · exact .unexpected

end Declaration

/-! ### Values -/

/-- Forms vary, wherever they stand. -/
def Form.Varies (t : Tolerance) (form form' : Form) : Prop :=
  ∀ span span', t.places span span' → Node.Varies t ⟨form, span⟩ ⟨form', span'⟩

section

variable {value value' : Parser Node}
  (each : DoAlike Q Anywhere (Node.Varies .layout) value value')

include each

theorem Entry.parser_alike {before before' : List Entry}
    (passed : List.Forall₂ (Entry.Varies .layout) before before') :
    DoAlike Q K (Entry.Varies .layout) (Entry.parser value before)
      (Entry.parser value' before') := by
  refine .here fun keySpan keySpan' => .kind fun k => ?_
  split
  · next key =>
    refine .advance (fun c known => by simp [known.2]) ?_
    refine (DoAlike.mark (by decide)).bind fun _ _ _ => each.bind fun node node' varies => ?_
    have hKeys : ∀ entry entry', Entry.Varies .layout entry entry' → entry.key = entry'.key := by
      rintro _ _ ⟨⟩
      rfl
    exact .ite (any_key_iff hKeys passed key) (.fail rfl) (.pure (.intro trivial varies))
  · exact .unexpected

theorem Entry.blockParser_alike :
    DoAlike Q K (List.Forall₂ (Entry.Varies .layout)) (Entry.blockParser value)
      (Entry.blockParser value') :=
  .block fun _ _ passed => Entry.parser_alike each passed

namespace Form

theorem objectParser_alike (typeName : Option String) :
    DoAlike Q K (Form.Varies .layout) (objectParser typeName value)
      (objectParser typeName value') := by
  refine .here fun _ _ => (Entry.blockParser_alike each).bind fun entries entries' varies => ?_
  exact .pure fun _ _ here => .object (fun _ _ => trivial) varies (.inl rfl) trivial here

theorem payloadParser_alike :
    DoAlike Q K (Payload.Varies .layout) (payloadParser value) (payloadParser value') := by
  refine .kind fun k => ?_
  split
  · exact (Entry.blockParser_alike each).bind fun _ _ varies => .pure (.fields varies (.inl rfl))
  · exact (DoAlike.tuple each).bind fun _ _ varies => .pure (.tuple varies)
  · exact .pure .unit

theorem variantParser_alike (enum : String) (noHash : ∀ c, K c → c.kind ≠ .mark .hash) :
    DoAlike Q K (Form.Varies .layout) (variantParser enum value) (variantParser enum value') := by
  refine .advance noHash ((DoAlike.mark (by decide)).bind fun _ _ _ => DoAlike.word.bind ?_)
  rintro name _ rfl
  refine (payloadParser_alike each).bind fun payload payload' varies => .pure ?_
  exact fun _ _ here => .variant trivial varies here

omit each in
theorem extendedParser_alike (kind : Extended) (noHash : ∀ c, K c → c.kind ≠ .mark .hash) :
    DoAlike Q K (Form.Varies .layout) (extendedParser kind) (extendedParser kind) := by
  refine .advance noHash ((DoAlike.mark (by decide)).bind fun _ _ _ => ?_)
  refine .kind fun k => .nextKind fun following => ?_
  split
  · -- The mark behind the text is known, and so both moves are.
    intro c d alike known
    have hText : c.kind ≠ .mark .hash := by simp [known.1.2]
    have hBracket : c.advance.kind ≠ .mark .hash := by simp [c.kind_advance, known.2]
    exact .ok ⟨fun _ _ here => .scalar trivial here, (alike.advance hText).advance hBracket⟩
  · exact .here fun _ _ => .fail rfl

theorem wordParser_alike (text : String) (noHash : ∀ c, K c → c.kind ≠ .mark .hash) :
    DoAlike Q K (Form.Varies .layout) (wordParser text value) (wordParser text value') := by
  have hLiteral : ∀ form : Form, form.IsScalar → DoAlike Q K (Form.Varies .layout)
      (Parser.advance >>= fun _ => pure form) (Parser.advance >>= fun _ => pure form) :=
    fun form scalar => .advance noHash (.pure fun _ _ here => .scalar scalar here)
  refine .ite .rfl (hLiteral _ trivial) (.ite .rfl (hLiteral _ trivial)
    (.ite .rfl (hLiteral _ trivial) ?_))
  refine .nextKind fun following => ?_
  split
  · exact extendedParser_alike _ fun c known => noHash c known.1
  · exact variantParser_alike each text fun c known => noHash c known.1
  · exact .advance (fun c known => noHash c known.1) (objectParser_alike each (some text))
  · exact .unexpected

theorem parser_alike :
    DoAlike Q K (Form.Varies .layout) (Form.parser value) (Form.parser value') := by
  refine .kind fun k => ?_
  have hNoHash : k ≠ .mark .hash → ∀ c : Cursor, K c ∧ c.kind = k → c.kind ≠ .mark .hash := by
    intro noHash c known
    rw [known.2]
    exact noHash
  -- one case for each kind of token, as the last alternative of the parser takes all others
  cases k with
  | quoted text =>
      exact .advance (hNoHash (by simp)) (.pure fun _ _ here => .scalar trivial here)
  | integer n => exact .advance (hNoHash (by simp)) (.pure fun _ _ here => .scalar trivial here)
  | fraction text =>
      dsimp only
      split
      · exact .advance (hNoHash (by simp)) (.pure fun _ _ here => .scalar trivial here)
      · exact .unexpected
  | word text => exact wordParser_alike each text (hNoHash (by simp))
  | mark m =>
      cases m with
      | opening b =>
          cases b with
          | square =>
              refine (DoAlike.block fun _ _ _ => each).bind fun items items' varies => .pure ?_
              exact fun _ _ here => .array varies here
          | brace => exact objectParser_alike each none
          | round => exact .unexpected
      | _ => exact .unexpected
  | endOfInput => exact .unexpected

end Form

end

theorem Node.parserAt_alike (depth : Nat) :
    DoAlike Q K (Node.Varies .layout) (parserAt depth) (parserAt depth) := by
  induction depth generalizing K with
  | zero => exact .here fun _ _ => .fail rfl
  | succ depth ih =>
      refine .here fun span span' => (Form.parser_alike ih).bind fun form form' varies => .pure ?_
      exact varies span span' trivial

/-! ### Documents -/

/-- What follows the mark of a directive. -/
def Include.wordParser (span : Span) : Parser Include := do
  match ← Parser.kind with
  | .word "include" =>
    Parser.advance
    return ⟨← Parser.quoted, span⟩
  | _ => Parser.unexpected .includeWord

theorem Include.parser_run (c : Cursor) : Include.parser c =
    if c.kind = .mark .hash then Include.wordParser c.span c.advance
    else Parser.unexpected (.token (.mark .hash)) c := by
  have hRun : Include.parser c =
      ((if c.kind = .mark .hash then Parser.advance
        else Parser.unexpected (.token (.mark .hash)) : Parser Unit) >>= fun _ =>
          Include.wordParser c.span) c := rfl
  rw [hRun]
  by_cases hHash : c.kind = .mark .hash
  · simp only [if_pos hHash]
    rfl
  · simp only [if_neg hHash]
    rfl

/-- A directive whose text is read. -/
theorem Include.parser_directive {c : Cursor} {i : String} {k : Token.Kind} {ks : List Token.Kind}
    (kinds : c.kinds = .mark .hash :: .word "include" :: .quoted i :: k :: ks) :
    ∃ directive rest, Include.parser c = .ok (directive, rest) ∧ directive.path = i ∧
      rest.kinds = k :: ks := by
  obtain ⟨file, t, later⟩ := c
  obtain ⟨hHash, hLater⟩ := List.cons.inj kinds
  obtain ⟨u, others, rfl, hWord, hOthers⟩ := List.map_eq_cons_iff.1 hLater
  obtain ⟨v, rest, rfl, hText, hRest⟩ := List.map_eq_cons_iff.1 hOthers
  obtain ⟨w, later, rfl, hNext, hKinds⟩ := List.map_eq_cons_iff.1 hRest
  obtain ⟨_, p⟩ := t
  obtain ⟨_, q⟩ := u
  obtain ⟨_, r⟩ := v
  obtain rfl := hHash
  obtain rfl := hWord
  obtain rfl := hText
  exact ⟨_, ⟨file, w, later⟩, rfl, rfl, List.cons_eq_cons.2 ⟨hNext, hKinds⟩⟩

/-- A directive is read here, with a path that may be another one in the other text. -/
theorem Include.parser_alike (reflexive : ∀ i, Q i i) :
    DoAlike Q Anywhere (fun directive directive' => Q directive.path directive'.path)
      Include.parser Include.parser := by
  have hWord : ∀ span span' : Span, DoAlike Q Anywhere
      (fun directive directive' => Q directive.path directive'.path) (Include.wordParser span)
      (Include.wordParser span') := by
    refine fun span span' => .kind fun k => ?_
    split
    · refine .advance (fun c known => by simp [known.2]) (DoAlike.quoted.bind ?_)
      rintro path _ rfl
      exact .pure (reflexive path)
    · exact .unexpected
  intro c d alike _
  have hKind := alike.kind
  have hBehind := alike.of_later
  have hSame : Token.SameKinds Q c.kinds d.kinds := alike
  generalize hLeft : c.kinds = ks, hRight : d.kinds = ls at hSame
  cases hSame with
  | nil => cases hLeft
  | kind others =>
      rw [← (List.cons.inj hLeft).2, ← (List.cons.inj hRight).2] at others
      rw [Include.parser_run, Include.parser_run, ← hKind]
      split
      · exact hWord _ _ _ _ (hBehind others) trivial
      · exact DoAlike.unexpected (K := Anywhere) c d alike trivial
  | directive related others =>
      obtain ⟨directive, rest, hRun, rfl, hRest⟩ := parser_directive hLeft
      obtain ⟨directive', rest', hRun', rfl, hRest'⟩ := parser_directive hRight
      rw [hRun, hRun']
      refine .ok ⟨related, ?_⟩
      rw [Cursor.Alike, hRest, hRest']
      exact others

theorem Root.parser_alike :
    DoAlike Q K (fun root root' => List.Forall₂ (Entry.Varies .layout) root.entries root'.entries)
      Root.parser Root.parser := by
  refine .here fun _ _ => .kind fun k => ?_
  split
  · exact (Entry.blockParser_alike (Node.parserAt_alike _)).bind fun _ _ varies => .pure varies
  · exact .unexpected
  · exact .unexpected

namespace Document

theorem endParser_alike : DoAlike Q K (fun _ _ => True) endParser endParser := by
  refine .kind fun k => ?_
  split
  · exact .pure trivial
  · exact .here fun _ _ => .fail rfl
  · exact .unexpected

theorem parser_alike (reflexive : ∀ i, Q i i) :
    DoAlike Q K (Document.Varies Q) parser parser := by
  refine (DoAlike.startingWith (Include.parser_alike reflexive)).bind
    fun includes includes' hIncludes => ?_
  refine (DoAlike.startingWith Declaration.parser_alike).bind fun ds ds' hDeclarations => ?_
  refine Root.parser_alike.bind fun root root' hRoot => endParser_alike.bind fun _ _ _ => ?_
  exact .pure ⟨hIncludes, map_eq_map_iff_forall₂.2 hDeclarations, hRoot⟩

/-- Tokens of the same kinds, apart from the paths in directives, are read alike. -/
theorem ofTokens_alike (reflexive : ∀ i, Q i i) {file file' : String} {ts us : List Token}
    (same : Token.SameKinds Q (ts.map Token.kind) (us.map Token.kind)) :
    EndsAlike (Document.Varies Q) (ofTokens file ts) (ofTokens file' us) := by
  have hLength := same.length_eq
  cases ts with
  | nil =>
      cases us with
      | nil => exact .error rfl
      | cons => cases hLength
  | cons t ts =>
      cases us with
      | nil => cases hLength
      | cons u us =>
          have hRun :=
            parser_alike (K := Anywhere) reflexive ⟨file, t, ts⟩ ⟨file', u, us⟩ same trivial
          simp only [ofTokens, StateT.run', Functor.map, Except.map]
          generalize parser ⟨file, t, ts⟩ = read at hRun ⊢
          generalize parser ⟨file', u, us⟩ = other at hRun ⊢
          cases hRun with
          | error code => exact .error code
          | ok related => exact .ok related.1

end Document

end TypedConfig
