import TypedConfig.Declaration.Parser
import TypedConfig.Proofs.Grammar.Lists
/-!
The parsers of types, fields, alternatives and declarations accept exactly their productions.
-/
namespace TypedConfig

open TypedConfig.Parser TypedConfig.Production

variable {file : String}

/-- The closing bracket of a block is taken where nothing else may stand. -/
theorem Parser.Accepts.closing {α : Type} {b : Bracket} {opened : Span} {a : α}
    {expected : Expectation} :
    Accepts file
      (Parser.atClosing b opened >>= fun closes =>
        if closes then (do Parser.advance; return a) else Parser.unexpected expected)
      fun input a' rest => a' = a ∧ ∃ t, input = t :: rest ∧ t.kind = .mark (.closing b) := by
  have hEach : ∀ closes : Bool, Accepts file
      (if closes then (do Parser.advance; return a) else Parser.unexpected expected)
      fun input a' rest => closes = true ∧ a' = a ∧ rest = Token.past input := by
    intro closes
    cases closes with
    | true => exact (behind (.pure a)).congr (by simp)
    | false => exact Accepts.unexpected.congr (by simp)
  refine (bind .atClosing hEach).congr ?_
  intro input a' rest
  constructor
  · rintro ⟨_, middle, ⟨rfl, t, later, rfl, ⟨-, hKind⟩ | ⟨hFalse, -⟩⟩, hTrue, rfl, rfl⟩
    · exact ⟨rfl, t, by simp [hKind], hKind⟩
    · exact absurd hTrue (by simp [hFalse])
  · rintro ⟨rfl, t, rfl, hKind⟩
    exact ⟨true, _, ⟨rfl, t, rest, rfl, .inl ⟨rfl, hKind⟩⟩, rfl, rfl, by simp [hKind]⟩

namespace TypeExpr

theorem accepts_step {room : Nat} {inner : Parser TypeExpr}
    (accepts : Accepts file inner (Derives room)) (k : Token.Kind) :
    Accepts file
      (match k with
        | .mark (.opening .square) => do
          let opened ← Parser.here
          Parser.advance
          let item ← inner
          if ← Parser.atClosing .square opened then
            Parser.advance
            return TypeExpr.array item
          else Parser.unexpected (.token (.mark (.closing .square)))
        | .word text => do
          Parser.advance
          return TypeExpr.ofWord text
        | _ => Parser.unexpected .typeName)
      fun input a rest =>
        (k = .mark (.opening .square) ∧ ∃ item u, a = .array item ∧
          Derives room (Token.past input) item (u :: rest) ∧ u.kind = .mark (.closing .square)) ∨
        ∃ text, k = .word text ∧ a = .ofWord text ∧ rest = Token.past input := by
  split
  · refine (Accepts.ignoringHere fun opened => Accepts.behind
      (Accepts.bind accepts fun item => .closing)).congr ?_
    intro input a rest
    constructor
    · rintro ⟨item, _, hItem, rfl, u, rfl, hKind⟩
      exact .inl ⟨rfl, item, u, rfl, hItem, hKind⟩
    · rintro (⟨-, item, u, rfl, hItem, hKind⟩ | ⟨_, hWord, -⟩)
      · exact ⟨item, _, hItem, rfl, u, rfl, hKind⟩
      · cases hWord
  · next text => exact (Accepts.behind (.pure (ofWord text))).congr (by simp [and_comm])
  · next hSquare hWord =>
    refine Accepts.unexpected.congr fun input a rest => ⟨False.elim, ?_⟩
    rintro (⟨hKind, -⟩ | ⟨text, hKind, -⟩)
    · exact hSquare hKind
    · exact hWord text hKind

/-- By induction on the room for nesting. -/
theorem parserAt_accepts (room : Nat) : Accepts file (parserAt room) (Derives room) := by
  induction room with
  | zero =>
      refine (Accepts.ignoringHere fun _ => Accepts.fail).congr fun input a rest => ?_
      exact ⟨False.elim, nofun⟩
  | succ room ih =>
      refine (Accepts.onKind (accepts_step ih)).congr fun input a rest => ?_
      constructor
      · rintro ⟨t, later, rfl, ⟨hKind, item, u, rfl, hItem, hClosing⟩ | ⟨text, hKind, rfl, rfl⟩⟩
        · exact .array hKind (by simpa [hKind] using hItem) hClosing
        · simpa [hKind] using Derives.word hKind
      · intro h
        cases h with
        | word name => exact ⟨_, _, rfl, .inr ⟨_, name, rfl, by simp [name]⟩⟩
        | array opening inner closing =>
            exact ⟨_, _, rfl, .inl ⟨opening, _, _, rfl, by simpa [opening] using inner, closing⟩⟩

theorem isItem_derives (room : Nat) : (Derives room).IsItem := by
  induction room with
  | zero => nofun
  | succ room ih =>
      intro input a rest h
      cases h with
      | word name => exact ⟨_, _, rfl, by simp [Token.Kind.BeginsItem, name], .refl _⟩
      | array opening inner closing =>
          exact ⟨_, _, rfl, by simp [Token.Kind.BeginsItem, opening],
            (ih.inside _ _ _ inner).trans (.cons (by simp [closing]) (.refl rest))⟩

end TypeExpr

theorem Slot.parser_accepts : Accepts file Slot.parser (Slot.Derives file) := by
  refine (Accepts.atHere fun span => Accepts.map (Slot.mk · span)
    (TypeExpr.parserAt_accepts maxNesting)).congr fun input a rest => ?_
  constructor
  · rintro ⟨t, later, rfl, type, rfl, hType⟩
    exact .intro hType
  · rintro ⟨hType⟩
    exact ⟨_, _, rfl, _, rfl, hType⟩

namespace Field

theorem isItem_derives : (Field.Derives file).IsItem := by
  intro input a rest h
  cases h with
  | required word colon inner =>
      have leaves := (TypeExpr.isItem_derives maxNesting).inside _ _ _ inner
      exact ⟨_, _, rfl, by simp [Token.Kind.BeginsItem, word], leaves.cons (by simp [colon])⟩
  | optional word question colon inner =>
      have leaves := (TypeExpr.isItem_derives maxNesting).inside _ _ _ inner
      exact ⟨_, _, rfl, by simp [Token.Kind.BeginsItem, word],
        (leaves.cons (by simp [colon])).cons (by simp [question])⟩

theorem block_inside : (Field.Block file).Inside := by
  rintro input fields rest ⟨block, -⟩
  obtain ⟨t, later, rfl, opening, leaves⟩ := block.begins isItem_derives.inside
  exact leaves.cons (by simp [opening])

theorem parser_accepts (before : List Field) :
    Accepts file (Field.parser before) fun input field rest =>
      Field.Derives file input field rest ∧ ∀ b ∈ before, b.name ≠ field.name := by
  refine (Accepts.atHere fun span => Accepts.bind .word fun name =>
    Accepts.bind (.optionalMark .question) fun optional => Accepts.bind (.mark .colon) fun _ =>
    Accepts.bind (TypeExpr.parserAt_accepts maxNesting) fun type => .refusing).congr
      fun input field rest => ?_
  constructor
  · rintro ⟨t, _, rfl, name, _, ⟨_, h₁, hWord⟩, optional, _, hMark, _, _, ⟨v, rfl, hColon⟩, type, _,
      hType, hFresh, rfl, rfl⟩
    obtain ⟨rfl, rfl⟩ := List.cons.inj h₁
    have hBefore : ∀ b ∈ before, b.name ≠ name := by simpa using hFresh
    rcases hMark with ⟨rfl, u, rfl, hQuestion⟩ | ⟨rfl, rfl, -⟩
    · exact ⟨.optional hWord hQuestion hColon hType, hBefore⟩
    · exact ⟨.required hWord hColon hType, hBefore⟩
  · rintro ⟨h, hBefore⟩
    cases h with
    | @required t u input _ name type word colon inner =>
        exact ⟨t, _, rfl, name, _, ⟨t, rfl, word⟩, false, _,
          .inr ⟨rfl, rfl, u, input, rfl, by simp [colon]⟩, (), _, ⟨u, rfl, colon⟩, type, _, inner,
          by simpa using hBefore, rfl, rfl⟩
    | @optional t u v input _ name type word question colon inner =>
        exact ⟨t, _, rfl, name, _, ⟨t, rfl, word⟩, true, _, .inl ⟨rfl, u, rfl, question⟩, (), _,
          ⟨v, rfl, colon⟩, type, _, inner, by simpa using hBefore, rfl, rfl⟩

end Field

namespace Variant

theorem shapeParser_accepts : Accepts file Variant.shapeParser
    (Production.Payload (Slot.Derives file) (Field.Block file)) := by
  refine Accepts.payload Slot.parser_accepts
    (Accepts.keyedBlock Field.isItem_derives Field.parser_accepts) ?_ rfl rfl ?_
  · rintro input fields rest ⟨⟨opening, -⟩, -⟩
    exact ⟨_, _, rfl, opening⟩
  · intro k hRound hBrace
    split
    · exact absurd rfl hRound
    · exact absurd rfl hBrace
    · rfl

theorem isItem_derives : (Variant.Derives file).IsItem := by
  rintro input variant rest ⟨word, carried⟩
  exact ⟨_, _, rfl, by simp [Token.Kind.BeginsItem, word],
    shapeParser_accepts.inside _ _ _ carried⟩

theorem parser_accepts (before : List Variant) :
    Accepts file (Variant.parser before) fun input variant rest =>
      Variant.Derives file input variant rest ∧ ∀ b ∈ before, b.name ≠ variant.name := by
  refine (Accepts.atHere fun span => Accepts.bind .word fun name =>
    Accepts.bind shapeParser_accepts fun shape => .refusing).congr fun input variant rest => ?_
  constructor
  · rintro ⟨t, _, rfl, name, _, ⟨_, heq, hWord⟩, shape, _, hShape, hFresh, rfl, rfl⟩
    obtain ⟨rfl, rfl⟩ := List.cons.inj heq
    exact ⟨.intro hWord hShape, by simpa using hFresh⟩
  · rintro ⟨@⟨t, input, _, name, shape, hWord, hShape⟩, hBefore⟩
    exact ⟨t, _, rfl, name, _, ⟨t, rfl, hWord⟩, shape, _, hShape, by simpa using hBefore, rfl, rfl⟩

end Variant

namespace Declaration

/-- A block that must not be empty is refused before its items are read. -/
theorem choiceParser_accepts : Accepts file Declaration.choiceParser fun input variants rest =>
    KeyedBlock Variant.name (Variant.Derives file) input variants rest ∧ variants ≠ [] := by
  have hItems : ∀ (k : Token.Kind) (opened : Span), Accepts file
      (if k = .mark (.closing .brace) then Parser.unexpected .enumVariant
        else itemsFrom .brace opened Variant.parser [])
      fun input variants rest => k ≠ .mark (.closing .brace) ∧
        Items .brace (Variant.Derives file) input variants rest ∧ (variants.map Variant.name).Nodup := by
    intro k opened
    split
    · next hClosing => exact Accepts.unexpected.congr (by simp [hClosing])
    · next hOther =>
      refine (Accepts.itemsFrom Variant.isItem_derives Variant.parser_accepts []).congr ?_
      simp [hOther, freshAfter_iff_nodup]
  refine (Accepts.ignoringHere fun opened => Accepts.bind (.mark _) fun _ =>
    Accepts.onKind fun k => hItems k opened).congr fun input variants rest => ?_
  constructor
  · rintro ⟨_, _, ⟨t, rfl, hOpening⟩, u, later, rfl, hKind, hItems, hNodup⟩
    refine ⟨⟨.intro hOpening hItems, hNodup⟩, fun hNil => ?_⟩
    subst hNil
    obtain ⟨v, heq, hClosing⟩ := items_nil_iff.1 hItems
    exact hKind ((List.cons.inj heq).1 ▸ hClosing)
  · rintro ⟨⟨@⟨t, inner, _, _, hOpening, hItems⟩, hNodup⟩, hNonempty⟩
    obtain ⟨variant, others, rfl⟩ := List.exists_cons_of_ne_nil hNonempty
    obtain ⟨middle, hFirst, -⟩ := (items_cons_iff Variant.isItem_derives).1 hItems
    obtain ⟨u, later, rfl, -, hKind⟩ := hFirst.head_ne_closing Variant.isItem_derives
    exact ⟨(), _, ⟨t, rfl, hOpening⟩, u, later, rfl, hKind _, hItems, hNodup⟩

/-- The word behind the mark tells which of the two declarations stands here. -/
theorem parser_accepts : Accepts file Declaration.parser (Declaration.Derives file) := by
  refine (Accepts.atHere fun span => Accepts.bind (.mark _) fun _ => Accepts.onKind
    (S := fun k input declaration rest => ∃ v later name, Token.past input = v :: later ∧
      v.kind = .word name ∧
      ((k = .word "enum" ∧ ∃ variants, declaration = ⟨name, .choice variants, span⟩ ∧
          KeyedBlock Variant.name (Variant.Derives file) later variants rest ∧ variants ≠ []) ∨
        (k = .word "type" ∧ ∃ fields, declaration = ⟨name, .record fields, span⟩ ∧
          Field.Block file later fields rest))) fun k => ?_).congr fun input declaration rest => ?_
  · split
    · refine (Accepts.behind (Accepts.bind .word fun name =>
        Accepts.map (fun variants => Declaration.mk name (.choice variants) span)
          choiceParser_accepts)).congr fun _ _ _ => ?_
      constructor
      · rintro ⟨name, later, ⟨v, hPast, hWord⟩, variants, rfl, hVariants⟩
        exact ⟨v, later, name, hPast, hWord, .inl ⟨rfl, variants, rfl, hVariants⟩⟩
      · rintro ⟨v, later, name, hPast, hWord, ⟨-, variants, rfl, hVariants⟩ | ⟨hType, -⟩⟩
        · exact ⟨name, later, ⟨v, hPast, hWord⟩, variants, rfl, hVariants⟩
        · exact absurd hType (by simp)
    · refine (Accepts.behind (Accepts.bind .word fun name =>
        Accepts.map (fun fields => Declaration.mk name (.record fields) span)
          (.keyedBlock Field.isItem_derives Field.parser_accepts))).congr fun _ _ _ => ?_
      constructor
      · rintro ⟨name, later, ⟨v, hPast, hWord⟩, fields, rfl, hFields⟩
        exact ⟨v, later, name, hPast, hWord, .inr ⟨rfl, fields, rfl, hFields⟩⟩
      · rintro ⟨v, later, name, hPast, hWord, ⟨hEnum, -⟩ | ⟨-, fields, rfl, hFields⟩⟩
        · exact absurd hEnum (by simp)
        · exact ⟨name, later, ⟨v, hPast, hWord⟩, fields, rfl, hFields⟩
    · next hEnum hType =>
      refine Accepts.unexpected.congr fun _ _ _ => ⟨False.elim, ?_⟩
      rintro ⟨v, later, name, -, -, ⟨hKind, -⟩ | ⟨hKind, -⟩⟩
      · exact hEnum hKind
      · exact hType hKind
  · constructor
    · rintro ⟨t, _, rfl, _, _, ⟨_, h₁, hMark⟩, u, _, rfl, v, later, name, hPast, hWord, h⟩
      obtain ⟨rfl, rfl⟩ := List.cons.inj h₁
      rcases h with ⟨hKind, variants, rfl, hBlock, hNonempty⟩ | ⟨hKind, fields, rfl, hBlock⟩
      · rw [Token.past_cons (by simp [hKind])] at hPast
        exact hPast ▸ .choice hMark hKind hWord hBlock hNonempty
      · rw [Token.past_cons (by simp [hKind])] at hPast
        exact hPast ▸ .record hMark hKind hWord hBlock
    · intro h
      cases h with
      | record hMark hType hWord hBlock =>
          exact ⟨_, _, rfl, (), _, ⟨_, rfl, hMark⟩, _, _, rfl, _, _, _, by simp [hType], hWord,
            .inr ⟨hType, _, rfl, hBlock⟩⟩
      | choice hMark hEnum hWord hBlock hNonempty =>
          exact ⟨_, _, rfl, (), _, ⟨_, rfl, hMark⟩, _, _, rfl, _, _, _, by simp [hEnum], hWord,
            .inl ⟨hEnum, _, rfl, hBlock, hNonempty⟩⟩

theorem begins_derives {input rest : List Token} {declaration : Declaration}
    (h : Declaration.Derives file input declaration rest) :
    ∃ t later, input = t :: later ∧ t.kind = .mark .atSign ∧ Token.Leaves later rest := by
  cases h with
  | record hMark hType hWord hBlock =>
      have leaves := Field.block_inside _ _ _ hBlock
      exact ⟨_, _, rfl, hMark, (leaves.cons (by simp [hWord])).cons (by simp [hType])⟩
  | choice hMark hEnum hWord hBlock hNonempty =>
      have leaves := choiceParser_accepts.inside _ _ _ ⟨hBlock, hNonempty⟩
      exact ⟨_, _, rfl, hMark, (leaves.cons (by simp [hWord])).cons (by simp [hEnum])⟩

end Declaration

end TypedConfig
