import TypedConfig.Proofs.Brackets.Tracking
import TypedConfig.Proofs.Grammar.Documents
/-!
The brackets of a document. Each parser leaves open what it finds open, with its own blocks closed.
So the brackets of what is read as a document are balanced, and those of what is reported as
unbalanced are not.
-/
namespace TypedConfig

open TypedConfig.Parser TypedConfig.Production

variable {s : List Bracket} {input : List Token}

/-- An item, with the comma that may follow it, takes a token. -/
theorem Parser.Accepts.length_lt {α : Type} {p : Parser α} {R : Production α} {fresh : α → Prop}
    (isItem : R.IsItem) {c d : Cursor} {a : α}
    (accepts : Accepts c.file p fun input a rest => R input a rest ∧ fresh a)
    (closed : Token.Closed c.tokens) (reads : (p <* Parser.optionalMark .comma) c = .ok (a, d)) :
    d.later.length < c.later.length := by
  obtain ⟨-, hRead⟩ := (accepts.separated.run_iff c rfl closed a d).1 reads
  have hLess := isItem.separated_length_lt (separated_and_iff.1 hRead).1
  simp only [Cursor.tokens, List.length_cons] at hLess
  omega

/-! ### Declarations -/

theorem TypeExpr.parserAt_tracks (depth : Nat) : Tracks s input (parserAt depth) s := by
  induction depth generalizing s input with
  | zero => exact .here fun _ => .fail (by simp [SyntaxFault.code])
  | succ depth ih =>
      rw [parserAt]
      refine .kind fun t later _ => ?_
      split
      · next hSquare =>
        refine .here fun opened => .advance_opening hSquare (ih.bind fun item rest => ?_)
        exact .closing rfl (fun _ => .pure) fun _ _ => .unexpected
      · next text hWord => exact .advance_word hWord .pure
      · exact .unexpected

theorem Slot.parser_tracks : Tracks s input Slot.parser s :=
  .here fun _ => (TypeExpr.parserAt_tracks _).bind fun _ _ => .pure

theorem Field.parser_tracks (before : List Field) : Tracks s input (Field.parser before) s := by
  refine .here fun span => Tracks.word.bind fun name _ => ?_
  refine (Tracks.optionalMark (by simp [Token.Kind.IsPlain])).bind fun optional _ => ?_
  refine (Tracks.mark (by simp [Token.Kind.IsPlain])).bind fun _ _ => ?_
  refine (TypeExpr.parserAt_tracks _).bind fun type _ => ?_
  exact .ite (fun _ => .fail (by simp [SyntaxFault.code])) fun _ => .pure

theorem Field.block_tracks : Tracks s input (block .brace Field.parser) s :=
  .block (fun before _ => Field.parser_tracks before) fun before _ _ _ closed reads =>
    Accepts.length_lt Field.isItem_derives (Field.parser_accepts before) closed reads

theorem Variant.parser_tracks (before : List Variant) :
    Tracks s input (Variant.parser before) s := by
  have hShape : ∀ rest, Tracks s rest Variant.shapeParser s := by
    refine fun rest => .kind fun t later _ => ?_
    split
    · exact (Tracks.tuple fun _ => Slot.parser_tracks).bind fun _ _ => .pure
    · exact Field.block_tracks.bind fun _ _ => .pure
    · exact .pure
  refine .here fun span => Tracks.word.bind fun name rest => (hShape rest).bind fun shape _ => ?_
  exact .ite (fun _ => .fail (by simp [SyntaxFault.code])) fun _ => .pure

theorem Declaration.choiceParser_tracks : Tracks s input choiceParser s := by
  refine .here fun opened => Tracks.mark_opening.bind fun _ _ => .kind fun t later _ => ?_
  refine .ite (fun _ => .unexpected) fun _ => ?_
  exact .itemsFrom (fun before _ => Variant.parser_tracks before) (fun before _ _ _ closed reads =>
    Accepts.length_lt Variant.isItem_derives (Variant.parser_accepts before) closed reads) []

theorem Declaration.parser_tracks : Tracks s input Declaration.parser s := by
  refine .here fun span => (Tracks.mark (by simp [Token.Kind.IsPlain])).bind fun _ _ => ?_
  refine .kind fun t later _ => ?_
  split
  · next hEnum =>
    refine .advance_word hEnum (Tracks.word.bind fun name _ => ?_)
    exact choiceParser_tracks.bind fun _ _ => .pure
  · next hType =>
    refine .advance_word hType (Tracks.word.bind fun name _ => ?_)
    exact Field.block_tracks.bind fun _ _ => .pure
  · exact .unexpected

/-! ### Values -/

/-- The argument of a keyword stands between brackets that are taken one by one. -/
theorem Form.extendedParser_tracks {t : Token} {later : List Token} {text : String}
    (kind : Extended) (word : t.kind = .word text) :
    Tracks s (t :: later) (extendedParser kind) s := by
  refine .advance_word word (Tracks.mark_opening.bind fun _ rest => .kind fun u others hRest => ?_)
  refine .nextKind fun v last hLast => ?_
  obtain ⟨rfl, rfl⟩ := List.cons.inj hLast
  split
  · next raw hQuoted hClosing =>
    have hPlain : u.kind.IsPlain := by simp [Token.Kind.IsPlain, hQuoted]
    refine .advance_plain (by simp [hQuoted]) hPlain ?_
    cases others with
    | nil => simp [hQuoted] at hClosing
    | cons w others => exact .advance_closing (by simpa using hClosing) .pure
  · exact .here fun _ => .fail (by simp [SyntaxFault.code])

section

variable {file : String} {value : Parser Node} {V : String → Production Node}

/-- The parts of a value are read by a parser that tracks brackets and accepts a production of
items. -/
structure Node.PartsTracked (value : Parser Node) (V : String → Production Node) : Prop where
  tracks : ∀ s input, Tracks s input value s
  accepts : ∀ file, Accepts file value (V file)
  isItem : ∀ file, (V file).IsItem

variable (parts : Node.PartsTracked value V)

include parts

theorem Entry.blockParser_tracks : Tracks s input (Entry.blockParser value) s := by
  refine .block (fun before rest => .here fun keySpan => .kind fun t later _ => ?_)
    fun before c _ _ closed reads => Accepts.length_lt
      (Entry.isItem_derives (parts.isItem c.file).inside)
      (Entry.parser_accepts (parts.accepts c.file) before) closed reads
  split
  · next key hWord =>
    refine .advance_word hWord ((Tracks.mark (by simp [Token.Kind.IsPlain])).bind fun _ _ => ?_)
    refine (parts.tracks _ _).bind fun node _ => ?_
    exact .ite (fun _ => .fail (by simp [SyntaxFault.code])) fun _ => .pure
  · exact .unexpected

namespace Form

theorem objectParser_tracks (typeName : Option String) :
    Tracks s input (objectParser typeName value) s :=
  .here fun _ => (Entry.blockParser_tracks parts).bind fun _ _ => .pure

theorem variantParser_tracks {t : Token} {later : List Token} (enum : String)
    (word : t.kind = .word enum) : Tracks s (t :: later) (variantParser enum value) s := by
  have hPayload : ∀ rest, Tracks s rest (payloadParser value) s := by
    refine fun rest => .kind fun t later _ => ?_
    split
    · exact (Entry.blockParser_tracks parts).bind fun _ _ => .pure
    · exact (Tracks.tuple fun _ => parts.tracks _ _).bind fun _ _ => .pure
    · exact .pure
  refine .advance_word word ((Tracks.mark (by simp [Token.Kind.IsPlain])).bind fun _ _ => ?_)
  exact Tracks.word.bind fun name rest => (hPayload rest).bind fun _ _ => .pure

theorem wordParser_tracks {t : Token} {later : List Token} (text : String)
    (word : t.kind = .word text) : Tracks s (t :: later) (wordParser text value) s := by
  have hLiteral : ∀ form : Form,
      Tracks s (t :: later) (Parser.advance >>= fun _ => pure form) s := fun form =>
    .advance_word word .pure
  refine .ite (fun _ => hLiteral _) fun _ => .ite (fun _ => hLiteral _) fun _ =>
    .ite (fun _ => hLiteral _) fun _ => .nextKind fun _ _ _ => ?_
  split
  · exact extendedParser_tracks _ word
  · exact variantParser_tracks parts text word
  · exact .advance_word word (objectParser_tracks parts (some text))
  · exact .unexpected

theorem parser_tracks : Tracks s input (Form.parser value) s := by
  refine .kind fun t later _ => ?_
  have hToken : ∀ form : Form, t.kind ≠ .endOfInput → t.kind.IsPlain →
      Tracks s (t :: later) (Parser.advance >>= fun _ => pure form) s :=
    fun form inside plain => .advance_plain inside plain .pure
  cases hKind : t.kind with
  | word text => exact wordParser_tracks parts text hKind
  | quoted text => exact hToken _ (by simp [hKind]) (by simp [Token.Kind.IsPlain, hKind])
  | integer n => exact hToken _ (by simp [hKind]) (by simp [Token.Kind.IsPlain, hKind])
  | fraction text =>
      dsimp only
      split
      · exact hToken _ (by simp [hKind]) (by simp [Token.Kind.IsPlain, hKind])
      · exact .unexpected
  | mark m =>
      cases m with
      | opening b =>
          cases b with
          | square =>
              refine Tracks.bind (.block (fun _ _ => parts.tracks _ _) ?_) fun _ _ => .pure
              intro _ c _ _ closed reads
              have hAccepts : Accepts c.file value fun input a rest =>
                  V c.file input a rest ∧ True := (parts.accepts c.file).congr (by simp)
              exact Accepts.length_lt (parts.isItem c.file) hAccepts closed reads
          | brace => exact objectParser_tracks parts none
          | round => exact .unexpected
      | _ => exact .unexpected
  | endOfInput => exact .unexpected

end Form

end

/-- By induction on the room for nesting, as each part of a value is read one level deeper. -/
theorem Node.parserAt_tracks (room : Nat) :
    Node.PartsTracked (Node.parserAt room) fun file => Node.Derives file room where
  accepts _ := (Node.parserAt_accepts room).1
  isItem _ := (Node.parserAt_accepts room).2
  tracks := by
    induction room with
    | zero => exact fun _ _ => .here fun _ => .fail (by simp [SyntaxFault.code])
    | succ room ih =>
        have hParts : Node.PartsTracked (Node.parserAt room) fun file => Node.Derives file room :=
          ⟨ih, fun _ => (Node.parserAt_accepts room).1, fun _ => (Node.parserAt_accepts room).2⟩
        exact fun _ _ => .here fun _ => (Form.parser_tracks hParts).bind fun _ _ => .pure

/-! ### Files -/

theorem Include.parser_tracks : Tracks s input Include.parser s := by
  refine .here fun span => (Tracks.mark (by simp [Token.Kind.IsPlain])).bind fun _ _ => ?_
  refine .kind fun t later _ => ?_
  split
  · next hWord => exact .advance_word hWord (Tracks.quoted.bind fun _ _ => .pure)
  · exact .unexpected

theorem Root.parser_tracks : Tracks s input Root.parser s := by
  refine .here fun span => .kind fun t later _ => ?_
  split
  · exact (Entry.blockParser_tracks (Node.parserAt_tracks maxNesting)).bind fun _ _ => .pure
  · exact .unexpected
  · exact .unexpected

namespace Document

/-- A closing bracket behind the root object closes nothing. -/
theorem endParser_tracks : Tracks [] input endParser [] := by
  refine .kind fun t later _ => ?_
  split
  · exact .pure
  · next b hClosing =>
    refine .here fun _ => fun c _ _ => ?_
    intro _
    rw [Token.openBehind?_unmatched hClosing]
    simp
  · exact .unexpected

theorem parser_tracks : Tracks [] input Document.parser [] := by
  refine (Tracks.startingWith fun _ => Include.parser_tracks).bind fun includes _ => ?_
  refine (Tracks.startingWith fun _ => Declaration.parser_tracks).bind fun declarations _ => ?_
  exact Root.parser_tracks.bind fun root _ => endParser_tracks.bind fun _ _ => .pure

variable {file : String} {tokens : List Token}

/-- Brackets are never reported as unbalanced where they are balanced: what is read as a document
has balanced brackets, and what is refused for its brackets has not. -/
theorem balanced_of_ofTokens (closed : Token.Closed tokens) :
    (∀ document, ofTokens file tokens = .ok document → Token.Balanced tokens) ∧
    ∀ d, ofTokens file tokens = .error d → d.cause.code = "UnbalancedBraces" →
      ¬ Token.Balanced tokens := by
  obtain ⟨t, later, rfl⟩ := List.exists_cons_of_ne_nil closed.ne_nil
  have hRun : ofTokens file (t :: later) = (Document.parser ⟨file, t, later⟩).map Prod.fst := rfl
  have hTracks := parser_tracks ⟨file, t, later⟩ rfl closed
  rw [hRun]
  cases hParse : Document.parser ⟨file, t, later⟩ with
  | error e =>
      rw [hParse] at hTracks
      refine ⟨nofun, fun d hError hCode => ?_⟩
      cases hError
      rw [Token.balanced_iff]
      exact hTracks hCode
  | ok read =>
      obtain ⟨document, rest⟩ := read
      rw [hParse] at hTracks
      refine ⟨fun _ _ => ?_, nofun⟩
      -- the end of input is left, which is no bracket
      obtain ⟨-, _, _, _, _, _, _, last, others, -, -, -, hRest, hEnds, -⟩ :=
        (parser_accepts.run_iff ⟨file, t, later⟩ rfl closed _ _).1 hParse
      obtain ⟨hLeaves, hOpen⟩ := hTracks
      have hClosed := closed.of_leaves hLeaves
      rw [hRest] at hClosed
      have hOpened : Token.openBehind? [] (t :: later) = Token.openBehind? [] rest.tokens := hOpen
      rw [Token.balanced_iff, hOpened, hRest, hClosed.later_eq_nil hEnds,
        Token.openBehind?_plain (by simp [Token.Kind.IsPlain, hEnds])]
      rfl

/-- A bracket that closes a block of another kind is reported, and the brackets are unbalanced. -/
theorem not_balanced_of_wrong_bracket :
    let tokens : List Token :=
      [⟨.mark (.opening .brace), ⟨1, 1, 0⟩⟩, ⟨.word "on", ⟨1, 3, 2⟩⟩, ⟨.mark .colon, ⟨1, 5, 4⟩⟩,
        ⟨.mark (.opening .square), ⟨1, 7, 6⟩⟩, ⟨.mark (.closing .brace), ⟨1, 9, 8⟩⟩,
        ⟨.endOfInput, ⟨1, 10, 9⟩⟩]
    Token.Closed tokens ∧ (ofTokens "main" tokens).map (fun _ => ()) =
        .error ⟨.grammatical (.wrongCloser .brace .square ⟨"main", 1, 7⟩), ⟨"main", 1, 9⟩⟩ ∧
      ¬ Token.Balanced tokens := by
  intro tokens
  have hClosed : Token.Closed tokens := by
    iterate 5 refine .cons (by decide) ?_
    exact .singleton rfl
  have hReport : (ofTokens "main" tokens).map (fun _ => ()) =
      .error ⟨.grammatical (.wrongCloser .brace .square ⟨"main", 1, 7⟩), ⟨"main", 1, 9⟩⟩ := by
    with_unfolding_all rfl
  refine ⟨hClosed, hReport, ?_⟩
  cases hRun : ofTokens "main" tokens with
  | error d =>
      rw [hRun] at hReport
      cases hReport
      exact (balanced_of_ofTokens hClosed).2 _ hRun rfl
  | ok document =>
      rw [hRun] at hReport
      cases hReport

end Document

end TypedConfig
