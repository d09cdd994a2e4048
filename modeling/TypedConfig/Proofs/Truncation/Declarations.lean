import TypedConfig.Declaration.Parser
import TypedConfig.Proofs.Truncation.Lists
/-!
Declarations that are cut off. A type begins behind a colon, a comma of a tuple or an opening
bracket, and nothing there can end. What may follow a type, a field or an alternative is a comma, a
bracket that closes the block, or the next name.
-/
namespace TypedConfig

open TypedConfig.Parser TypedConfig.Token

/-- The kinds of tokens that may follow a type, or an item that ends with one. -/
def Token.Kind.AfterType (k : Token.Kind) : Prop :=
  k = .mark .comma ∨ (∃ b, k = .mark (.closing b)) ∨ ∃ text, k = .word text

/-- No block is open, and no name has a block behind it. -/
def Token.Settled (tokens : List Token) : Prop :=
  Balanced tokens ∧ ∀ text, lastKind? tokens ≠ some (.word text)

/-! ### Parsers at the end of input -/

namespace Cut

variable {α β : Type}

theorem Stops.bind {p : Parser α} {f : α → Parser β} (stops : Stops p) : Stops (p >>= f) := by
  intro c hKind
  obtain ⟨e, hRun, hCode⟩ := stops c hKind
  exact ⟨e, by rw [bind_apply, hRun], hCode⟩

theorem stops_here {f : Span → Parser β} (stops : ∀ span, Stops (f span)) :
    Stops (Parser.here >>= f) :=
  fun c hKind => stops c.span c hKind

theorem stops_kind {f : Token.Kind → Parser β} (stops : Stops (f .endOfInput)) :
    Stops (Parser.kind >>= f) := by
  intro c hKind
  have hRun : (Parser.kind >>= f) c = f .endOfInput c := hKind ▸ rfl
  exact hRun ▸ stops c hKind

theorem stops_fail {fault : SyntaxFault} {span : Span} (code : fault.code ≠ "UnbalancedBraces") :
    Stops (Parser.fail fault span : Parser α) :=
  fun _ _ => ⟨_, rfl, code⟩

/-- What begins with a word. -/
theorem word_of_reads {f : Span → String → Parser β} {c d : Cursor} {b : β}
    (reads : (Parser.here >>= fun span => Parser.word >>= f span) c = .ok (b, d)) :
    ∃ text, c.kind = .word text := by
  have hReads : (Parser.word >>= f c.span) c = .ok (b, d) := reads
  obtain ⟨text, e, hWord, -⟩ := bind_eq_ok.1 hReads
  obtain ⟨k, e', hKind, hTaken⟩ := bind_eq_ok.1 hWord
  obtain ⟨rfl, -⟩ := kind_eq_ok.1 hKind
  cases h : c.kind with
  | word text => exact ⟨text, rfl⟩
  | _ => simp [h] at hTaken

end Cut

open Cut

variable {cut : Cut} {behind front : List Token} {t o : Token}

/-! ### Types -/

theorem TypeExpr.stops_parserAt (depth : Nat) : Stops (parserAt depth) := by
  cases depth with
  | zero => exact stops_here fun _ => stops_fail (by simp [SyntaxFault.code])
  | succ depth => exact stops_kind stops_unexpected

/-- By induction on the room for nesting. -/
theorem TypeExpr.parserAt_reads (depth : Nat) (declaring : Declaring behind) :
    cut.Reads behind (t :: front) (parserAt depth) (parserAt depth) (cut.Part Kind.AfterType behind)
      False := by
  induction depth generalizing behind t front with
  | zero => exact .of_stops fun c a d hRun => by simp [parserAt] at hRun
  | succ depth ih =>
      refine .kind ?_
      cases hKind : t.kind with
      | word text =>
          refine .taken (.of_token ?_ ?_ ?_ ?_)
          · simp [Kind.IsPlain, hKind]
          · simp [hKind]
          · simp [hKind]
          · rw [hKind]
            rintro (hNext | ⟨b, hNext⟩ | ⟨text, hNext⟩) <;> simp [PausesAt, hNext]
      | mark m =>
          cases m with
          | opening b =>
              cases b with
              | square =>
                  have hInside : (openBehind? [] [t]).isSome := by
                    rw [openBehind?_opening hKind]
                    rfl
                  have hInner : cut.Reads (behind ++ [t]) front (parserAt depth) (parserAt depth)
                      (cut.Part Kind.AfterType (behind ++ [t])) False := by
                    cases front with
                    | nil =>
                        refine .of_stuck (stops_parserAt depth) fun hUsed => ?_
                        rw [hUsed, pauses_concat, hKind]
                        exact fun hNot => hNot declaring
                    | cons u front => exact ih (declaring.append hInside)
                  refine .here (.advance (hInner.bind (fun item moved others _ part => ?_)
                    False.elim))
                  have hOpen : Innermost (behind ++ [t] ++ moved) .square t :=
                    (Innermost.concat hKind).append part.balanced
                  refine (Reads.closing hOpen fun hUsed hNext =>
                    part.pauses hUsed (.inr (.inl ⟨_, hNext⟩))).imp (fun more closes => ?_) id
                  obtain ⟨inner, u, rfl, hInner, hClosing⟩ := closes
                  exact .of_enclosed ⟨.square, t, _, rfl, hKind, moved ++ inner, u, by simp,
                    part.balanced.append hInner, hClosing⟩
              | _ => exact .of_unexpected
          | _ => exact .of_unexpected
      | _ => exact .of_unexpected

/-! ### Fields -/

namespace Field

theorem parser_reads (before : List Field) (declaring : Declaring behind) :
    cut.Reads behind (t :: front) (Field.parser before) (Field.parser before)
      (cut.Part Kind.AfterType behind) False := by
  refine .here (Reads.word (S := False) |>.andThen ?_ (fun name _ others _ hWord => ?_) False.elim)
  · rintro _ ⟨rfl, text, hWord⟩
    exact .one (by simp [Kind.IsPlain, hWord])
  obtain ⟨rfl, text, hWord⟩ := hWord
  have hOptional : ∀ moved, (moved = [] ∨ ∃ u, moved = [u] ∧ u.kind = .mark .question) →
      Balanced moved := by
    rintro _ (rfl | ⟨u, rfl, hQuestion⟩)
    · exact .nil
    · exact .one (by simp [Kind.IsPlain, hQuestion])
  refine .of_used fun hName => Reads.optionalMark.andThen hOptional
    (fun optional moved others _ hMark => ?_) fun hEnd _ _ _ _ => ?_
  · refine (Reads.mark (S := False) fun hUsed hNext => ?_).andThen ?_
      (fun _ _ others _ hColon => ?_) False.elim
    · rcases hMark with rfl | ⟨u, rfl, hQuestion⟩
      · rw [hUsed, List.append_nil, pauses_concat, hWord]
        exact fun hPauses => hPauses.1 hNext
      · rw [hUsed, pauses_concat, hQuestion]
        exact id
    · rintro _ ⟨v, rfl, hColon⟩
      exact .one (by simp [Kind.IsPlain, hColon])
    obtain ⟨v, rfl, hColon⟩ := hColon
    refine .refusing ?_
    cases others with
    | nil =>
        refine .of_stuck (TypeExpr.stops_parserAt _) fun hUsed => ?_
        rw [hUsed, pauses_concat, hColon]
        exact id
    | cons w others =>
        refine TypeExpr.parserAt_reads _ (((declaring.append ?_).append ?_).append ?_)
        · exact (Balanced.one (by simp [Kind.IsPlain, hWord])).isSome
        · exact (hOptional moved hMark).isSome
        · exact (Balanced.one (by simp [Kind.IsPlain, hColon])).isSome
  · obtain ⟨rfl, hNext⟩ := hEnd
    refine .of_stops ?_ stops_mark.bind
    rw [hName, List.append_nil, pauses_concat, hWord]
    exact fun hPauses => hPauses.2.1 hNext

/-- The fields of a block. -/
theorem loop : cut.Loop .brace o Declaring Kind.AfterType Field.parser where
  notRound := by simp
  keeps _ _ declaring balanced := declaring.append balanced.isSome
  closing := .inr (.inl ⟨_, rfl⟩)
  comma := .inl rfl
  starts _ _ _ _ hRun := .inr (.inr (word_of_reads hRun))
  each before _ _ _ declaring _ _ := (parser_reads before declaring).imp (fun _ => id) False.elim

theorem blockParser_reads
    (declaring : o.kind = .mark (.opening .brace) → Declaring (behind ++ [o])) :
    cut.Reads behind (o :: front) (Parser.block .brace Field.parser)
      (Parser.block .brace Field.parser) Enclosed False :=
  .block (fun _ => loop) declaring (by simp)

end Field

/-! ### Alternatives -/

namespace Variant

/-- The types that an alternative carries. -/
theorem slotLoop : cut.SlotLoop o Declaring Kind.AfterType Slot.parser where
  keeps _ _ declaring balanced := declaring.append balanced.isSome
  closing := .inr (.inl ⟨_, rfl⟩)
  comma := .inl rfl
  stops := stops_here fun _ => (TypeExpr.stops_parserAt _).bind
  each _ _ _ declaring _ _ :=
    (Reads.here (TypeExpr.parserAt_reads _ declaring).map).imp (fun _ => id) False.elim

/-- What an alternative carries, behind its name. -/
theorem shapeParser_reads {S : Prop} (declaring : Declaring behind)
    (ended : front = [] → (∃ b, cut.next.kind = .mark (.opening b)) → S) :
    cut.Reads behind front shapeParser shapeParser
      (fun moved => moved = [] ∨ Enclosed moved) S := by
  refine .payload rfl rfl ?_ (fun u others hFront hRound => ?_) (fun u others hFront hBrace => ?_)
    ended
  · intro k hRound hBrace
    split
    · exact absurd rfl hRound
    · exact absurd rfl hBrace
    · rfl
  · subst hFront
    refine .tuple (fun _ => slotLoop) (declaring.append ?_)
    rw [openBehind?_opening hRound]
    rfl
  · subst hFront
    refine Field.blockParser_reads fun _ => declaring.append ?_
    rw [openBehind?_opening hBrace]
    rfl

/-- The name of an alternative is a whole item, as its block is one of braces and no colon stands in
front of it. -/
theorem parser_reads (before : List Variant) (declaring : Declaring behind)
    (innermost : Innermost behind .brace o) (rests : Rests behind) :
    cut.Reads behind (t :: front) (Variant.parser before) (Variant.parser before)
      (cut.Part Kind.AfterType behind) (cut.Halts (t :: front)) := by
  refine .here (.of_used fun hUsed => Reads.bind (S := False) Reads.word
    (fun name _ others hSplit hWord => ?_) False.elim)
  obtain ⟨rfl, text, hWord⟩ := hWord
  obtain rfl := (List.cons.inj hSplit).2
  have hOne : Balanced [t] := .one (by simp [Kind.IsPlain, hWord])
  have hName : cut.Part Kind.AfterType behind [t] := by
    refine .of_token (by simp [Kind.IsPlain, hWord]) (by simp [hWord]) (by simp [hWord]) ?_
    rw [hWord]
    rintro (hNext | ⟨b, hNext⟩ | ⟨text, hNext⟩) <;> simp [PausesAt, hNext]
  have hShape : cut.Reads (behind ++ [t]) front Variant.shapeParser Variant.shapeParser
      (fun moved => moved = [] ∨ Enclosed moved) (cut.Halts (t :: front)) := by
    refine shapeParser_reads (declaring.append hOne.isSome) fun hFront hNext => ?_
    subst hFront
    obtain ⟨b, hNext⟩ := hNext
    refine ⟨hOne, ?_⟩
    rw [hUsed, pauses_concat, hWord]
    refine ⟨by simp [hNext], by simp [hNext], by simp [hNext], fun _ _ => .inr (.inr ?_)⟩
    exact ⟨rests.lastKind?_ne.1, o, innermost⟩
  refine (Reads.refusing hShape).imp (fun moved hMoved => ?_) id
  rcases hMoved with rfl | hEnclosed
  · exact hName
  · exact (Part.of_enclosed hEnclosed).prepend hOne

/-- The alternatives of an enum. -/
theorem loop : cut.Loop .brace o Declaring Kind.AfterType Variant.parser where
  notRound := by simp
  keeps _ _ declaring balanced := declaring.append balanced.isSome
  closing := .inr (.inl ⟨_, rfl⟩)
  comma := .inl rfl
  starts _ _ _ _ hRun := .inr (.inr (word_of_reads hRun))
  each before _ _ _ declaring innermost rests := parser_reads before declaring innermost rests

end Variant

/-! ### Declarations -/

namespace Declaration

theorem choiceParser_reads
    (declaring : o.kind = .mark (.opening .brace) → Declaring (behind ++ [o])) :
    cut.Reads behind (o :: front) choiceParser choiceParser Enclosed False := by
  refine .here (.enclosed fun hOpening => ?_)
  have hItems : cut.Reads (behind ++ [o]) front
      (itemsFrom .brace (o.span cut.file) Variant.parser [])
      (itemsFrom .brace (o.span cut.file) Variant.parser []) (Closes .brace) False :=
    .opened hOpening Variant.loop (declaring hOpening) (by simp)
  cases front with
  | nil =>
      refine .kind_cut ?_
      rw [if_neg (by simp : Token.Kind.endOfInput ≠ .mark (.closing .brace))]
      split
      · exact .of_unexpected
      · exact hItems
  | cons u front =>
      refine .kind ?_
      split
      · exact .of_unexpected
      · exact hItems

/-- The block of a declaration is the first one that is open. -/
theorem body_reads {α : Type} {p : Parser (List α)} {h : String → List α → Declaration}
    (settled : Settled behind) {text : String} (word : t.kind = .word text)
    (block : ∀ {behind' front' : List Token} {o : Token},
      (o.kind = .mark (.opening .brace) → Declaring (behind' ++ [o])) →
      cut.Reads behind' (o :: front') p p Enclosed False) :
    cut.Reads behind (t :: front)
      (do Parser.advance; let name ← Parser.word; return h name (← p))
      (do Parser.advance; let name ← Parser.word; return h name (← p))
      (fun moved => Settled (behind ++ moved)) False := by
  have hKeyword : Balanced (behind ++ [t]) :=
    settled.1.append (.one (by simp [Kind.IsPlain, word]))
  refine .advance ?_
  cases front with
  | nil => exact .of_balanced hKeyword
  | cons u front =>
      refine Reads.bind (S := False) Reads.word (fun name _ others _ hName => ?_) False.elim
      obtain ⟨rfl, text', hName⟩ := hName
      have hBalanced : Balanced (behind ++ [t] ++ [u]) :=
        hKeyword.append (.one (by simp [Kind.IsPlain, hName]))
      cases others with
      | nil => exact .of_balanced hBalanced
      | cons o others =>
          have hDeclaring : o.kind = .mark (.opening .brace) →
              Declaring (behind ++ [t] ++ [u] ++ [o]) := fun hOpening =>
            ⟨behind ++ [t], u, o, [], text', by simp, hKeyword, hName, hOpening, rfl⟩
          refine ((block hDeclaring).map).imp (fun moved hEnclosed => ?_) id
          obtain ⟨before, v, b, rfl, hClosing⟩ := hEnclosed.exists_last
          have hAll : behind ++ t :: ([u] ++ (before ++ [v])) =
              behind ++ [t] ++ [u] ++ (before ++ [v]) := by simp
          rw [hAll]
          refine ⟨hBalanced.append hEnclosed.balanced, fun text => ?_⟩
          rw [← List.append_assoc, lastKind?_concat, hClosing]
          simp

theorem parser_reads (settled : Settled behind) :
    cut.Reads behind (t :: front) Declaration.parser Declaration.parser
      (fun moved => Settled (behind ++ moved)) False := by
  refine .here (Reads.bind (S := False) (Reads.mark fun hUsed _ => ?_)
    (fun _ _ others _ hMark => ?_) False.elim)
  · exact absurd (hUsed ▸ settled.1) cut.isOpen
  obtain ⟨u, rfl, hMark⟩ := hMark
  have hSettled : Settled (behind ++ [u]) :=
    ⟨settled.1.append (.one (by simp [Kind.IsPlain, hMark])), by simp [hMark]⟩
  cases others with
  | nil => exact .of_balanced hSettled.1
  | cons v others =>
      refine .kind ?_
      split
      · next hEnum =>
        exact (body_reads hSettled hEnum choiceParser_reads).imp
          (fun moved h => by simpa using h) id
      · next hType =>
        exact (body_reads hSettled hType Field.blockParser_reads).imp
          (fun moved h => by simpa using h) id
      · exact .of_unexpected

end Declaration

end TypedConfig
