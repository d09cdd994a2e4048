import TypedConfig.Proofs.Places.Lexing
/-!
Parsers keep places: if every token at hand stands at a place that is as told, then so does
everything in what is read, and a diagnostic points only at such places. That is kept when parsers
are put together, so that there is one short proof for each of them.
-/
namespace TypedConfig

/-- Every token from the one at hand on stands at a place that is as told. -/
def Cursor.Within (P : Span → Prop) (c : Cursor) : Prop :=
  ∀ t ∈ c.current :: c.later, P (t.span c.file)

theorem Cursor.Within.advance {P : Span → Prop} {c : Cursor} (within : c.Within P) :
    c.advance.Within P := by
  obtain ⟨file, t, later⟩ := c
  cases later with
  | nil => exact within
  | cons u later => exact (List.forall_mem_cons.1 within).2

namespace Parser

variable {α β : Type} {P : Span → Prop}

/-- An outcome of reading has only places that are as told: those in what was read and those of the
tokens left, or those of the diagnostic. -/
def Outcome (P : Span → Prop) (Q : α → Prop) : Except Diagnostic (α × Cursor) → Prop :=
  TypedConfig.Outcome (Diagnostic.Within "parse" P) fun read => Q read.1 ∧ read.2.Within P

/-- A parser keeps places as told. -/
def Keeps (P : Span → Prop) (p : Parser α) (Q : α → Prop) : Prop :=
  ∀ c : Cursor, c.Within P → Outcome P Q (p c)

/-- What is done with what was read, if something was. -/
theorem Outcome.step {Q : α → Prop} {R : β → Prop} {read : Except Diagnostic (α × Cursor)}
    {next : α → Cursor → Except Diagnostic (β × Cursor)} (outcome : Outcome P Q read)
    (others : ∀ a rest, Q a → rest.Within P → Outcome P R (next a rest)) :
    Outcome P R (match read with
      | .error d => .error d
      | .ok (a, rest) => next a rest) := by
  cases read with
  | error d => exact outcome
  | ok pair => exact others pair.1 pair.2 outcome.1 outcome.2

/-- What is put in front of the list that was read behind it. -/
theorem Outcome.cons {Q : α → Prop} {a : α} {others : Except Diagnostic (List α × Cursor)}
    (first : Q a) (outcome : Outcome P (fun as => ∀ a ∈ as, Q a) others) :
    Outcome P (fun as => ∀ a ∈ as, Q a) (match others with
      | .error d => .error d
      | .ok (as, last) => .ok (a :: as, last)) := by
  cases others with
  | error d => exact outcome
  | ok pair => exact ⟨List.forall_mem_cons.2 ⟨first, outcome.1⟩, outcome.2⟩

namespace Keeps

theorem bind {p : Parser α} {q : α → Parser β} {Q : α → Prop} {R : β → Prop}
    (first : Keeps P p Q) (second : ∀ a, Q a → Keeps P (q a) R) : Keeps P (p >>= q) R := by
  intro c within
  have hFirst := first c within
  simp only [Bind.bind, StateT.bind, Except.bind]
  cases hRun : p c with
  | error d =>
      rw [hRun] at hFirst
      exact hFirst
  | ok read =>
      obtain ⟨a, rest⟩ := read
      rw [hRun] at hFirst
      exact second a hFirst.1 rest hFirst.2

theorem pure {a : α} {Q : α → Prop} (value : Q a) : Keeps P (Pure.pure a : Parser α) Q :=
  fun _ within => ⟨value, within⟩

theorem fail {fault : SyntaxFault} {span : Span} {Q : α → Prop} (here : P span)
    (shown : ∀ s ∈ fault.mentions, P s) : Keeps P (Parser.fail fault span : Parser α) Q :=
  fun _ _ => ⟨rfl, here, shown⟩

theorem kind : Keeps P Parser.kind fun _ => True := fun _ within => ⟨trivial, within⟩

theorem nextKind : Keeps P Parser.nextKind fun _ => True := fun _ within => ⟨trivial, within⟩

theorem here : Keeps P Parser.here P := fun _ within => ⟨within _ List.mem_cons_self, within⟩

theorem advance : Keeps P Parser.advance fun _ => True := fun _ within => ⟨trivial, within.advance⟩

theorem unexpected {expected : Expectation} {Q : α → Prop} :
    Keeps P (Parser.unexpected expected : Parser α) Q :=
  kind.bind fun _ _ => here.bind fun _ hHere => fail hHere (by simp [SyntaxFault.mentions])

theorem ite {condition : Prop} [Decidable condition] {p q : Parser α} {Q : α → Prop}
    (yes : Keeps P p Q) (no : Keeps P q Q) : Keeps P (if condition then p else q) Q := by
  split
  · exact yes
  · exact no

theorem mark (m : Mark) : Keeps P (Parser.mark m) fun _ => True :=
  kind.bind fun _ _ => ite advance unexpected

theorem word : Keeps P Parser.word fun _ => True := by
  refine kind.bind fun k _ => ?_
  cases k with
  | word text => exact advance.bind fun _ _ => pure trivial
  | _ => exact unexpected

theorem quoted : Keeps P Parser.quoted fun _ => True := by
  refine kind.bind fun k _ => ?_
  cases k with
  | quoted text => exact advance.bind fun _ _ => pure trivial
  | _ => exact unexpected

theorem optionalMark (m : Mark) : Keeps P (Parser.optionalMark m) fun _ => True :=
  kind.bind fun _ _ => ite (advance.bind fun _ _ => pure trivial) (pure trivial)

theorem atClosing {block : Bracket} {opened : Span} (hOpened : P opened) :
    Keeps P (Parser.atClosing block opened) fun _ => True := by
  have hShown : ∀ s ∈ [opened], P s := List.forall_mem_singleton.2 hOpened
  refine kind.bind fun k _ => ?_
  split
  · exact ite (pure trivial) (here.bind fun _ hHere => fail hHere hShown)
  · exact here.bind fun _ hHere => fail hHere hShown
  · exact pure trivial

/-! ### Lists -/

variable {Q : α → Prop}

theorem itemsFrom {b : Bracket} {opened : Span} {item : List α → Parser α} (hOpened : P opened)
    (each : ∀ before, Keeps P (item before) Q) (before : List α) :
    Keeps P (Parser.itemsFrom b opened item before) fun as => ∀ a ∈ as, Q a := by
  intro c within
  induction hLength : c.later.length using Nat.strongRecOn generalizing c before with
  | _ n ih =>
      have hItem : Keeps P (item before <* Parser.optionalMark .comma) Q :=
        (each before).bind fun a hA => (optionalMark .comma).bind fun _ _ => pure hA
      have hClosing : Outcome P (fun _ => True) (Parser.atClosing b opened c) :=
        atClosing hOpened c within
      rw [Parser.itemsFrom]
      split
      · next d hRun =>
        rw [hRun] at hClosing
        exact hClosing
      · next d hRun =>
        rw [hRun] at hClosing
        exact ⟨List.forall_mem_nil _, hClosing.2.advance⟩
      · refine (hItem c within).step fun a next hA hNext => ?_
        split
        · next hLess => exact .cons hA (ih _ (hLength ▸ hLess) (a :: before) next hNext rfl)
        · exact ⟨rfl, hNext _ List.mem_cons_self, List.forall_mem_singleton.2 hOpened⟩

theorem block {b : Bracket} {item : List α → Parser α} (each : ∀ before, Keeps P (item before) Q) :
    Keeps P (Parser.block b item) fun as => ∀ a ∈ as, Q a :=
  here.bind fun _ hOpened => (mark _).bind fun _ _ => itemsFrom hOpened each []

theorem slotsFrom {opened : Span} {item : Parser α} (hOpened : P opened) (each : Keeps P item Q) :
    Keeps P (Parser.slotsFrom opened item) fun as => ∀ a ∈ as, Q a := by
  intro c within
  induction hLength : c.later.length using Nat.strongRecOn generalizing c with
  | _ n ih =>
      rw [Parser.slotsFrom]
      refine (each c within).step fun a next hA hNext => ?_
      split
      · split
        · next hLess => exact .cons hA (ih _ (hLength ▸ hLess) next.advance hNext.advance rfl)
        · exact ⟨rfl, hNext _ List.mem_cons_self, List.forall_mem_singleton.2 hOpened⟩
      · have hClosing : Outcome P (fun _ => True) (Parser.atClosing .round opened next) :=
          atClosing hOpened next hNext
        split
        · next d hRun =>
          rw [hRun] at hClosing
          exact hClosing
        · next last hRun =>
          rw [hRun] at hClosing
          exact ⟨List.forall_mem_singleton.2 hA, hClosing.2.advance⟩
        · next last hRun =>
          rw [hRun] at hClosing
          exact unexpected last hClosing.2

theorem tuple {item : Parser α} (each : Keeps P item Q) :
    Keeps P (Parser.tuple item) fun as => ∀ a ∈ as, Q a :=
  here.bind fun _ hOpened => (mark _).bind fun _ _ => slotsFrom hOpened each

theorem startingWith {m : Mark} {item : Parser α} (each : Keeps P item Q) :
    Keeps P (Parser.startingWith m item) fun as => ∀ a ∈ as, Q a := by
  intro c within
  induction hLength : c.later.length using Nat.strongRecOn generalizing c with
  | _ n ih =>
      rw [Parser.startingWith]
      split
      · refine (each c within).step fun a next hA hNext => ?_
        split
        · next hLess => exact .cons hA (ih _ (hLength ▸ hLess) next hNext rfl)
        · exact ⟨List.forall_mem_singleton.2 hA, hNext⟩
      · exact ⟨List.forall_mem_nil _, within⟩

end Keeps

end Parser

open TypedConfig.Parser

variable {P : Span → Prop}

/-! ### Declarations -/

theorem TypeExpr.parserAt_keeps (depth : Nat) : Keeps P (parserAt depth) fun _ => True := by
  induction depth with
  | zero => exact Keeps.here.bind fun _ hHere => .fail hHere (by simp [SyntaxFault.mentions])
  | succ depth ih =>
      rw [parserAt]
      refine Keeps.kind.bind fun k _ => ?_
      split
      · refine Keeps.here.bind fun opened hOpened => Keeps.advance.bind fun _ _ => ?_
        refine ih.bind fun item _ => (Keeps.atClosing hOpened).bind fun _ _ => ?_
        exact .ite (Keeps.advance.bind fun _ _ => .pure trivial) .unexpected
      · exact Keeps.advance.bind fun _ _ => .pure trivial
      · exact .unexpected

theorem Slot.parser_keeps : Keeps P Slot.parser fun slot => P slot.span :=
  Keeps.here.bind fun _ hHere => (TypeExpr.parserAt_keeps _).bind fun _ _ => .pure hHere

theorem Field.parser_keeps (before : List Field) :
    Keeps P (Field.parser before) fun field => P field.span := by
  refine Keeps.here.bind fun span hHere => Keeps.word.bind fun name _ => ?_
  refine (Keeps.optionalMark _).bind fun optional _ => (Keeps.mark _).bind fun _ _ => ?_
  refine (TypeExpr.parserAt_keeps _).bind fun type _ => ?_
  exact .ite (.fail hHere (by simp [SyntaxFault.mentions])) (.pure hHere)

theorem Variant.shapeParser_keeps :
    Keeps P Variant.shapeParser fun shape => ∀ s ∈ shape.places, P s := by
  refine Keeps.kind.bind fun k _ => ?_
  split
  · exact (Keeps.tuple Slot.parser_keeps).bind fun slots hSlots =>
      .pure (List.forall_mem_map.2 hSlots)
  · exact (Keeps.block Field.parser_keeps).bind fun fields hFields =>
      .pure (List.forall_mem_map.2 hFields)
  · exact .pure (List.forall_mem_nil _)

theorem Variant.parser_keeps (before : List Variant) :
    Keeps P (Variant.parser before) fun v => ∀ s ∈ v.span :: v.shape.places, P s := by
  refine Keeps.here.bind fun span hHere => Keeps.word.bind fun name _ => ?_
  refine Variant.shapeParser_keeps.bind fun shape hShape => ?_
  exact .ite (.fail hHere (by simp [SyntaxFault.mentions]))
    (.pure (List.forall_mem_cons.2 ⟨hHere, hShape⟩))

namespace Declaration

theorem choiceParser_keeps :
    Keeps P choiceParser fun variants => ∀ v ∈ variants, ∀ s ∈ v.span :: v.shape.places, P s := by
  refine Keeps.here.bind fun opened hOpened => (Keeps.mark _).bind fun _ _ => ?_
  refine Keeps.kind.bind fun k _ => ?_
  exact .ite .unexpected (.itemsFrom hOpened Variant.parser_keeps [])

theorem parser_keeps : Keeps P parser (Declaration.Placed P) := by
  refine Keeps.here.bind fun span hHere => (Keeps.mark _).bind fun _ _ => ?_
  refine Keeps.kind.bind fun k _ => ?_
  split
  · refine Keeps.advance.bind fun _ _ => Keeps.word.bind fun name _ => ?_
    refine choiceParser_keeps.bind fun variants hVariants => .pure ?_
    refine List.forall_mem_cons.2 ⟨hHere, fun s mem => ?_⟩
    obtain ⟨v, hMem, hSpan⟩ := List.mem_flatMap.1 mem
    exact hVariants v hMem s hSpan
  · refine Keeps.advance.bind fun _ _ => Keeps.word.bind fun name _ => ?_
    refine (Keeps.block Field.parser_keeps).bind fun fields hFields => .pure ?_
    exact List.forall_mem_cons.2 ⟨hHere, List.forall_mem_map.2 hFields⟩
  · exact .unexpected

end Declaration

/-! ### Values -/

namespace Form

/-- Every place in a form is as told. -/
def Placed (P : Span → Prop) (form : Form) : Prop :=
  (∀ s ∈ form.places, P s) ∧ ∀ part ∈ form.parts, part.Placed P

theorem placed_of_parts_eq_nil {form : Form} (places : form.places = []) (parts : form.parts = []) :
    form.Placed P := by
  rw [Placed, places, parts]
  exact ⟨List.forall_mem_nil _, List.forall_mem_nil _⟩

theorem extendedParser_keeps (kind : Extended) : Keeps P (extendedParser kind) (Form.Placed P) := by
  refine Keeps.advance.bind fun _ _ => (Keeps.mark _).bind fun _ _ => ?_
  refine Keeps.kind.bind fun k _ => Keeps.nextKind.bind fun following _ => ?_
  split
  · exact Keeps.advance.bind fun _ _ => Keeps.advance.bind fun _ _ =>
      .pure (placed_of_parts_eq_nil rfl rfl)
  · exact Keeps.here.bind fun _ hHere => .fail hHere (by simp [SyntaxFault.mentions])

end Form

section

variable {value : Parser Node} (each : Keeps P value (Node.Placed P))

include each

theorem Entry.blockParser_keeps :
    Keeps P (Entry.blockParser value) fun entries => ∀ entry ∈ entries, entry.Placed P := by
  refine Keeps.block fun before => Keeps.here.bind fun keySpan hHere => ?_
  refine Keeps.kind.bind fun k _ => ?_
  split
  · refine Keeps.advance.bind fun _ _ => (Keeps.mark _).bind fun _ _ => ?_
    refine each.bind fun node hNode => ?_
    exact .ite (.fail hHere (by simp [SyntaxFault.mentions])) (.pure ⟨hHere, hNode⟩)
  · exact .unexpected

namespace Form

theorem objectParser_keeps (typeName : Option String) :
    Keeps P (objectParser typeName value) (Form.Placed P) := by
  refine Keeps.here.bind fun opened hOpened => ?_
  refine (Entry.blockParser_keeps each).bind fun entries hEntries => .pure ⟨?_, ?_⟩
  · exact List.forall_mem_cons.2 ⟨hOpened, List.forall_mem_map.2 fun entry mem =>
      (hEntries entry mem).1⟩
  · exact List.forall_mem_map.2 fun entry mem => (hEntries entry mem).2

theorem variantParser_keeps (enum : String) :
    Keeps P (variantParser enum value) (Form.Placed P) := by
  refine Keeps.advance.bind fun _ _ => (Keeps.mark _).bind fun _ _ => ?_
  refine Keeps.word.bind fun name _ => ?_
  have hPayload : Keeps P (payloadParser value) fun payload =>
      (Form.variant enum name payload).Placed P := by
    refine Keeps.kind.bind fun k _ => ?_
    split
    · refine (Entry.blockParser_keeps each).bind fun entries hEntries => .pure ⟨?_, ?_⟩
      · exact List.forall_mem_map.2 fun entry mem => (hEntries entry mem).1
      · exact List.forall_mem_map.2 fun entry mem => (hEntries entry mem).2
    · exact (Keeps.tuple each).bind fun items hItems => .pure ⟨List.forall_mem_nil _, hItems⟩
    · exact .pure (placed_of_parts_eq_nil rfl rfl)
  exact hPayload.bind fun payload hPlaced => .pure hPlaced

theorem wordParser_keeps (text : String) : Keeps P (wordParser text value) (Form.Placed P) := by
  have hLiteral : ∀ form : Form, form.places = [] → form.parts = [] →
      Keeps P (Parser.advance >>= fun _ => pure form) (Form.Placed P) := fun form places parts =>
    Keeps.advance.bind fun _ _ => .pure (placed_of_parts_eq_nil places parts)
  refine .ite (hLiteral _ rfl rfl) (.ite (hLiteral _ rfl rfl) (.ite (hLiteral _ rfl rfl) ?_))
  refine Keeps.nextKind.bind fun following _ => ?_
  split
  · exact extendedParser_keeps _
  · exact variantParser_keeps each text
  · exact Keeps.advance.bind fun _ _ => objectParser_keeps each (some text)
  · exact .unexpected

theorem parser_keeps : Keeps P (Form.parser value) (Form.Placed P) := by
  refine Keeps.kind.bind fun k _ => ?_
  -- one case for each kind of token, as the last alternative of the parser takes all others
  cases k with
  | quoted text => exact Keeps.advance.bind fun _ _ => .pure (placed_of_parts_eq_nil rfl rfl)
  | integer n => exact Keeps.advance.bind fun _ _ => .pure (placed_of_parts_eq_nil rfl rfl)
  | fraction text =>
      dsimp only
      split
      · exact Keeps.advance.bind fun _ _ => .pure (placed_of_parts_eq_nil rfl rfl)
      · exact .unexpected
  | word text => exact wordParser_keeps each text
  | mark m =>
      cases m with
      | opening b =>
          cases b with
          | square =>
              exact (Keeps.block fun _ => each).bind fun items hItems =>
                .pure ⟨List.forall_mem_nil _, hItems⟩
          | brace => exact objectParser_keeps each none
          | round => exact .unexpected
      | _ => exact .unexpected
  | endOfInput => exact .unexpected

end Form

end

theorem Node.parserAt_keeps (depth : Nat) : Keeps P (parserAt depth) (Node.Placed P) := by
  induction depth with
  | zero => exact Keeps.here.bind fun _ hHere => .fail hHere (by simp [SyntaxFault.mentions])
  | succ depth ih =>
      refine Keeps.here.bind fun span hHere => (Form.parser_keeps ih).bind fun form hForm => ?_
      exact .pure (.intro hHere hForm.1 hForm.2)

/-! ### Documents -/

theorem Include.parser_keeps : Keeps P Include.parser fun directive => P directive.span := by
  refine Keeps.here.bind fun span hHere => (Keeps.mark _).bind fun _ _ => ?_
  refine Keeps.kind.bind fun k _ => ?_
  split
  · exact Keeps.advance.bind fun _ _ => Keeps.quoted.bind fun _ _ => .pure hHere
  · exact .unexpected

theorem Root.parser_keeps :
    Keeps P Root.parser fun root => ∀ entry ∈ root.entries, entry.Placed P := by
  refine Keeps.here.bind fun span hHere => Keeps.kind.bind fun k _ => ?_
  split
  · exact (Entry.blockParser_keeps (Node.parserAt_keeps _)).bind fun entries hEntries =>
      .pure hEntries
  · exact .unexpected
  · exact .unexpected

namespace Document

theorem endParser_keeps : Keeps P endParser fun _ => True := by
  refine Keeps.kind.bind fun k _ => ?_
  split
  · exact .pure trivial
  · exact Keeps.here.bind fun _ hHere => .fail hHere (by simp [SyntaxFault.mentions])
  · exact .unexpected

theorem parser_keeps : Keeps P parser (Document.Placed P) := by
  refine (Keeps.startingWith Include.parser_keeps).bind fun includes hIncludes => ?_
  refine (Keeps.startingWith Declaration.parser_keeps).bind fun declarations hDeclarations => ?_
  refine Root.parser_keeps.bind fun root hRoot => endParser_keeps.bind fun _ _ => ?_
  exact .pure ⟨hIncludes, hDeclarations, hRoot⟩

/-- Reading tokens whose places are all as told. -/
theorem ofTokens_outcome {file : String} {tokens : List Token} (nonempty : tokens ≠ [])
    (within : ∀ t ∈ tokens, P (t.span file)) :
    TypedConfig.Outcome (Diagnostic.Within "parse" P) (Document.Placed P)
      (ofTokens file tokens) := by
  obtain ⟨t, later, rfl⟩ := List.exists_cons_of_ne_nil nonempty
  have hOutcome := parser_keeps ⟨file, t, later⟩ within
  exact hOutcome.map fun read hRead => hRead.1

/-- Every place in a document that is read from a text is that of a token. A text that is no
document is at fault where a token stands, or what is no lexeme. -/
theorem parse_outcome {file source : String} (tokens : ∀ s, Token.StartsAt file source s → P s) :
    TypedConfig.Outcome (fun d => Token.FailsIn file source d ∨ d.Within "parse" P)
      (Document.Placed P) (parse file source) := by
  rw [parse]
  cases hScan : Token.scan file source with
  | error d => exact .inl (Token.scan_outcome.of_error hScan)
  | ok scanned =>
      obtain ⟨hNonempty, hStarts⟩ := Token.scan_outcome.of_ok hScan
      exact (ofTokens_outcome hNonempty fun t mem => tokens _ (hStarts t mem)).mono
        fun d within => .inr within

end Document

end TypedConfig
