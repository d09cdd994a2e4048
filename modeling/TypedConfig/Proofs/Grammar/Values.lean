import TypedConfig.Node.Parser
import TypedConfig.Proofs.Grammar.Lists
/-!
The parser of values accepts exactly its production. The parts of a value are read by a parser one
level deeper; that this one accepts its own production is an assumption until the levels are put
together.
-/
namespace TypedConfig

open TypedConfig.Parser TypedConfig.Production

variable {file : String}

namespace Entry

theorem isItem_derives {V : Production Node} (inside : V.Inside) :
    (Entry.Derives file V).IsItem := by
  rintro input entry rest ⟨word, colon, inner⟩
  exact ⟨_, _, rfl, by simp [Token.Kind.BeginsItem, word],
    (inside _ _ _ inner).cons (by simp [colon])⟩

theorem begins_block {V : Production Node} (inside : V.Inside) {input rest : List Token}
    {entries : List Entry} (block : Entry.Block file V input entries rest) :
    ∃ t later, input = t :: later ∧ t.kind = .mark (.opening .brace) ∧ Token.Leaves later rest :=
  block.1.begins (isItem_derives inside).inside

theorem block_inside {V : Production Node} (inside : V.Inside) : (Entry.Block file V).Inside := by
  intro input entries rest block
  obtain ⟨t, later, rfl, opening, leaves⟩ := begins_block inside block
  exact leaves.cons (by simp [opening])

variable {value : Parser Node} {V : Production Node}

theorem parser_accepts (accepts : Accepts file value V) (before : List Entry) :
    Accepts file (Entry.parser value before) fun input entry rest =>
      Entry.Derives file V input entry rest ∧ ∀ b ∈ before, b.key ≠ entry.key := by
  refine Accepts.congr (Accepts.atHere fun span => Accepts.onKind (S := fun k input entry rest =>
    ∃ u later key node, Token.past input = u :: later ∧ k = .word key ∧ u.kind = .mark .colon ∧
      V later node rest ∧ (∀ b ∈ before, b.key ≠ key) ∧ entry = ⟨key, span, node⟩) fun k => ?_)
    fun input entry rest => ?_
  · split
    · next key =>
      refine (Accepts.behind (Accepts.bind (.mark _) fun _ =>
        Accepts.bind accepts fun node => .refusing)).congr fun input entry rest => ?_
      constructor
      · rintro ⟨_, _, ⟨u, hPast, hColon⟩, node, _, hNode, hFresh, rfl, rfl⟩
        exact ⟨u, _, key, node, hPast, rfl, hColon, hNode, by simpa using hFresh, rfl⟩
      · rintro ⟨u, later, _, node, hPast, ⟨⟩, hColon, hNode, hBefore, rfl⟩
        exact ⟨(), later, ⟨u, hPast, hColon⟩, node, _, hNode, by simpa using hBefore, rfl, rfl⟩
    · next hWord =>
      refine Accepts.unexpected.congr fun _ _ _ => ⟨False.elim, ?_⟩
      rintro ⟨u, later, key, node, -, hKind, -⟩
      exact hWord key hKind
  · constructor
    · rintro ⟨t, _, rfl, _, _, heq, u, later, key, node, hPast, hWord, hColon, hNode, hBefore, rfl⟩
      obtain ⟨rfl, rfl⟩ := List.cons.inj heq
      rw [Token.past_cons (by simp [hWord])] at hPast
      exact ⟨hPast ▸ .intro hWord hColon hNode, hBefore⟩
    · rintro ⟨⟨hWord, hColon, hNode⟩, hBefore⟩
      exact ⟨_, _, rfl, _, _, rfl, _, _, _, _, by simp [hWord], hWord, hColon, hNode, hBefore, rfl⟩

theorem blockParser_accepts (accepts : Accepts file value V) :
    Accepts file (Entry.blockParser value) (Entry.Block file V) :=
  .keyedBlock (isItem_derives accepts.inside) (parser_accepts accepts)

end Entry

namespace Form

variable {value : Parser Node} {V : Production Node}

theorem payloadParser_accepts (accepts : Accepts file value V) :
    Accepts file (Form.payloadParser value) (Production.Payload V (Entry.Block file V)) := by
  refine Accepts.payload accepts (Entry.blockParser_accepts accepts) ?_ rfl rfl ?_
  · intro input entries rest block
    obtain ⟨t, later, rfl, opening, -⟩ := Entry.begins_block accepts.inside block
    exact ⟨t, later, rfl, opening⟩
  · intro k hRound hBrace
    split
    · exact absurd rfl hBrace
    · exact absurd rfl hRound
    · rfl

theorem objectParser_accepts (accepts : Accepts file value V) (name : Option String) :
    Accepts file (Form.objectParser name value) fun input form rest =>
      ∃ t later entries, input = t :: later ∧ form = .object name entries (t.span file) ∧
        Entry.Block file V input entries rest := by
  refine (Accepts.atHere fun span => Accepts.map (Form.object name · span)
    (Entry.blockParser_accepts accepts)).congr fun input form rest => ?_
  constructor
  · rintro ⟨t, later, rfl, entries, rfl, block⟩
    exact ⟨t, later, entries, rfl, rfl, block⟩
  · rintro ⟨t, later, entries, rfl, rfl, block⟩
    exact ⟨t, later, rfl, entries, rfl, block⟩

theorem variantParser_accepts (accepts : Accepts file value V) (enum : String) :
    Accepts file (Form.variantParser enum value) fun input form rest =>
      ∃ u v later name payload, Token.past input = u :: v :: later ∧ u.kind = .mark .dot ∧
        v.kind = .word name ∧ form = .variant enum name payload ∧
        Production.Payload V (Entry.Block file V) later payload rest := by
  refine (Accepts.behind (Accepts.bind (.mark _) fun _ => Accepts.bind .word fun name =>
    Accepts.map (Form.variant enum name ·) (payloadParser_accepts accepts))).congr
      fun input form rest => ?_
  constructor
  · rintro ⟨_, _, ⟨u, hPast, hDot⟩, name, later, ⟨v, rfl, hWord⟩, payload, rfl, carried⟩
    exact ⟨u, v, later, name, payload, hPast, hDot, hWord, rfl, carried⟩
  · rintro ⟨u, v, later, name, payload, hPast, hDot, hWord, rfl, carried⟩
    exact ⟨(), _, ⟨u, hPast, hDot⟩, name, later, ⟨v, rfl, hWord⟩, payload, rfl, carried⟩

theorem extendedParser_accepts (kind : Extended) :
    Accepts file (Form.extendedParser kind) fun input form rest =>
      ∃ u v w raw, Token.past input = u :: v :: w :: rest ∧ u.kind = .mark (.opening .round) ∧
        v.kind = .quoted raw ∧ w.kind = .mark (.closing .round) ∧ form = .extended kind raw := by
  refine (Accepts.behind (Accepts.bind (.mark _) fun _ => Accepts.onKind fun k =>
    Accepts.onNextKind (S := fun next input form rest => ∃ raw, k = .quoted raw ∧
      next = .mark (.closing .round) ∧ form = .extended kind raw ∧
      rest = Token.past (Token.past input)) fun next => ?_)).congr fun input form rest => ?_
  · split
    · next raw =>
      exact (Accepts.behind (Accepts.behind (.pure (Form.extended kind raw)))).congr (by simp)
    · next hOther =>
      refine (Accepts.ignoringHere fun _ => Accepts.fail).congr fun _ _ _ => ⟨False.elim, ?_⟩
      rintro ⟨raw, rfl, rfl, -⟩
      exact hOther raw rfl rfl
  · constructor
    · rintro ⟨_, _, ⟨u, hPast, hRound⟩, v, later, rfl, _, _, heq, raw, hQuoted, hClosing, rfl, rfl⟩
      obtain ⟨rfl, rfl⟩ := List.cons.inj heq
      cases later with
      | nil => simp [hQuoted] at hClosing
      | cons w later =>
          have hKind : w.kind = .mark (.closing .round) := hClosing
          exact ⟨u, v, w, raw, by simp [hPast, hQuoted, hKind], hRound, hQuoted, hKind, rfl⟩
    · rintro ⟨u, v, w, raw, hPast, hRound, hQuoted, hClosing, rfl⟩
      exact ⟨(), _, ⟨u, hPast, hRound⟩, v, _, rfl, v, _, rfl, raw, hQuoted, hClosing, rfl,
        by simp [hQuoted, hClosing]⟩

/-- A value that begins with a word is told by the word and what stands behind it. -/
theorem derives_word_iff {t : Token} {later rest : List Token} {text : String} {form : Form}
    (word : t.kind = .word text) : Form.Derives file V (t :: later) form rest ↔
      (text = "true" ∧ form = .boolean true ∧ rest = later) ∨
      (text = "false" ∧ form = .boolean false ∧ rest = later) ∨
      (text = "null" ∧ form = .null ∧ rest = later) ∨
      (∃ kind u v w raw, Extended.ofKeyword? text = some kind ∧ later = u :: v :: w :: rest ∧
        u.kind = .mark (.opening .round) ∧ v.kind = .quoted raw ∧
        w.kind = .mark (.closing .round) ∧ form = .extended kind raw) ∨
      (¬ IsLiteralWord text ∧ ∃ u v input name payload, later = u :: v :: input ∧
        u.kind = .mark .dot ∧ v.kind = .word name ∧ form = .variant text name payload ∧
        Production.Payload V (Entry.Block file V) input payload rest) ∨
      (¬ IsLiteralWord text ∧ ∃ u input entries, later = u :: input ∧
        form = .object (some text) entries (u.span file) ∧
        Entry.Block file V (u :: input) entries rest) := by
  constructor
  · intro h
    cases h with
    | string quoted => simp [word] at quoted
    | integer integer => simp [word] at integer
    | float fraction => simp [word] at fraction
    | true hWord => exact .inl ⟨Token.Kind.word.inj (word.symm.trans hWord), rfl, rfl⟩
    | false hWord => exact .inr (.inl ⟨Token.Kind.word.inj (word.symm.trans hWord), rfl, rfl⟩)
    | null hWord =>
        exact .inr (.inr (.inl ⟨Token.Kind.word.inj (word.symm.trans hWord), rfl, rfl⟩))
    | array block =>
        cases block with
        | intro opening items => simp [word] at opening
    | object block =>
        obtain ⟨⟨opening, items⟩, -⟩ := block
        simp [word] at opening
    | annotated hWord other block =>
        obtain rfl := Token.Kind.word.inj (word.symm.trans hWord)
        exact .inr (.inr (.inr (.inr (.inr ⟨other, _, _, _, rfl, rfl, block⟩))))
    | extended hWord known opening argument closing =>
        obtain rfl := Token.Kind.word.inj (word.symm.trans hWord)
        exact .inr (.inr (.inr (.inl ⟨_, _, _, _, _, known, rfl, opening, argument, closing, rfl⟩)))
    | variant hWord other dot alternative carried =>
        obtain rfl := Token.Kind.word.inj (word.symm.trans hWord)
        exact .inr (.inr (.inr (.inr (.inl
          ⟨other, _, _, _, _, _, rfl, dot, alternative, rfl, carried⟩))))
  · rintro (⟨rfl, rfl, rfl⟩ | ⟨rfl, rfl, rfl⟩ | ⟨rfl, rfl, rfl⟩ |
      ⟨kind, u, v, w, raw, known, rfl, opening, argument, closing, rfl⟩ |
      ⟨other, u, v, input, name, payload, rfl, dot, alternative, rfl, carried⟩ |
      ⟨other, u, input, entries, rfl, rfl, block⟩)
    · exact .true word
    · exact .false word
    · exact .null word
    · exact .extended word known opening argument closing
    · exact .variant word other dot alternative carried
    · exact .annotated word other block

/-- What a word that is no literal begins. -/
theorem wordParser_accepts_of_other (accepts : Accepts file value V) (text : String)
    (next : Token.Kind) :
    Accepts file
      (match next, Extended.ofKeyword? text with
        | .mark (.opening .round), some kind => Form.extendedParser kind
        | .mark .dot, _ => Form.variantParser text value
        | .mark (.opening .brace), _ => do
          Parser.advance
          Form.objectParser (some text) value
        | _, _ => Parser.unexpected .value)
      fun input form rest =>
        (next = .mark (.opening .round) ∧ ∃ kind, Extended.ofKeyword? text = some kind ∧
          ∃ u v w raw, Token.past input = u :: v :: w :: rest ∧ u.kind = .mark (.opening .round) ∧
            v.kind = .quoted raw ∧ w.kind = .mark (.closing .round) ∧ form = .extended kind raw) ∨
        (next = .mark .dot ∧ ∃ u v later name payload, Token.past input = u :: v :: later ∧
          u.kind = .mark .dot ∧ v.kind = .word name ∧ form = .variant text name payload ∧
          Production.Payload V (Entry.Block file V) later payload rest) ∨
        (next = .mark (.opening .brace) ∧ ∃ t later entries, Token.past input = t :: later ∧
          form = .object (some text) entries (t.span file) ∧
          Entry.Block file V (Token.past input) entries rest) := by
  split
  · next kind known => exact (extendedParser_accepts kind).congr (by simp [known])
  · exact (variantParser_accepts accepts text).congr (by simp)
  · exact (Accepts.behind (objectParser_accepts accepts (some text))).congr (by simp)
  · next hDot hBrace hRound =>
    refine Accepts.unexpected.congr fun _ _ _ => ⟨False.elim, ?_⟩
    rintro (⟨hNext, kind, known, -⟩ | ⟨hNext, -⟩ | ⟨hNext, -⟩)
    · exact hRound kind hNext known
    · exact hDot hNext
    · exact hBrace hNext

theorem wordParser_accepts (accepts : Accepts file value V) (text : String) :
    ∃ S, Accepts file (Form.wordParser text value) S ∧ ∀ t later, t.kind = .word text →
      ∀ form rest, S (t :: later) form rest ↔ Form.Derives file V (t :: later) form rest := by
  simp only [Form.wordParser]
  split
  · next hText =>
    refine ⟨_, Accepts.behind (.pure (Form.boolean true)), fun t later word form rest => ?_⟩
    rw [derives_word_iff word]
    simp [hText, word, IsLiteralWord, Extended.ofKeyword?]
  split
  · next hText =>
    refine ⟨_, Accepts.behind (.pure (Form.boolean false)), fun t later word form rest => ?_⟩
    rw [derives_word_iff word]
    simp [hText, word, IsLiteralWord, Extended.ofKeyword?]
  split
  · next hText =>
    refine ⟨_, Accepts.behind (.pure Form.null), fun t later word form rest => ?_⟩
    rw [derives_word_iff word]
    simp [hText, word, IsLiteralWord, Extended.ofKeyword?]
  · next hTrue hFalse hNull =>
    refine ⟨_, Accepts.onNextKind (wordParser_accepts_of_other accepts text),
      fun t later word form rest => ?_⟩
    have hOther : ¬ IsLiteralWord text := by simp [IsLiteralWord, hTrue, hFalse, hNull]
    have hPast : Token.past (t :: later) = later := Token.past_cons (by simp [word])
    rw [derives_word_iff word]
    simp only [hTrue, hFalse, hNull, false_and, false_or, hOther, not_false_eq_true, true_and]
    constructor
    · rintro ⟨_, _, heq, h⟩
      rw [hPast] at h
      rcases h with ⟨-, kind, known, u, v, w, raw, h⟩ | ⟨-, h⟩ | ⟨-, u, input, entries, rfl, h⟩
      · exact .inl ⟨kind, u, v, w, raw, known, h⟩
      · exact .inr (.inl h)
      · exact .inr (.inr ⟨u, input, entries, rfl, h⟩)
    · intro h
      refine ⟨t, later, rfl, ?_⟩
      rw [hPast]
      rcases h with ⟨kind, u, v, w, raw, known, rfl, hRound, h⟩ |
        ⟨u, v, input, name, payload, rfl, hDot, h⟩ | ⟨u, input, entries, rfl, h, block⟩
      · exact .inl ⟨hRound, kind, known, u, v, w, raw, rfl, hRound, h⟩
      · exact .inr (.inl ⟨hDot, u, v, input, name, payload, rfl, hDot, h⟩)
      · obtain ⟨⟨opening, -⟩, -⟩ := id block
        exact .inr (.inr ⟨opening, u, input, entries, rfl, h, block⟩)

/-- A value that does not begin with a word is told by its first token. -/
theorem derives_iff_of_no_word {t : Token} {later rest : List Token} {form : Form}
    (word : ∀ text, t.kind ≠ .word text) : Form.Derives file V (t :: later) form rest ↔
      (∃ text, t.kind = .quoted text ∧ form = .string text ∧ rest = later) ∨
      (∃ n, t.kind = .integer n ∧ form = .integer n ∧ rest = later) ∨
      (∃ text x, t.kind = .fraction text ∧ Number.Binary64.read text.toList = some x ∧
        form = .float x ∧ rest = later) ∨
      (t.kind = .mark (.opening .square) ∧ ∃ items, form = .array items ∧
        Block .square V (t :: later) items rest) ∨
      (t.kind = .mark (.opening .brace) ∧ ∃ entries, form = .object none entries (t.span file) ∧
        Entry.Block file V (t :: later) entries rest) := by
  constructor
  · intro h
    cases h with
    | string quoted => exact .inl ⟨_, quoted, rfl, rfl⟩
    | integer integer => exact .inr (.inl ⟨_, integer, rfl, rfl⟩)
    | float fraction reads => exact .inr (.inr (.inl ⟨_, _, fraction, reads, rfl, rfl⟩))
    | array block =>
        cases block with
        | intro opening items =>
            exact .inr (.inr (.inr (.inl ⟨opening, _, rfl, .intro opening items⟩)))
    | object block =>
        obtain ⟨⟨opening, items⟩, nodup⟩ := block
        exact .inr (.inr (.inr (.inr ⟨opening, _, rfl, .intro opening items, nodup⟩)))
    | true hWord | false hWord | null hWord => exact absurd hWord (word _)
    | annotated hWord | extended hWord | variant hWord => exact absurd hWord (word _)
  · rintro (⟨text, quoted, rfl, rfl⟩ | ⟨n, integer, rfl, rfl⟩ |
      ⟨text, x, fraction, reads, rfl, rfl⟩ | ⟨-, items, rfl, block⟩ | ⟨-, entries, rfl, block⟩)
    · exact .string quoted
    · exact .integer integer
    · exact .float fraction reads
    · exact .array block
    · exact .object block

theorem isItem_derives (inside : V.Inside) : (Form.Derives file V).IsItem := by
  intro input form rest h
  cases h with
  | string quoted => exact ⟨_, _, rfl, by simp [Token.Kind.BeginsItem, quoted], .refl _⟩
  | integer integer => exact ⟨_, _, rfl, by simp [Token.Kind.BeginsItem, integer], .refl _⟩
  | float fraction => exact ⟨_, _, rfl, by simp [Token.Kind.BeginsItem, fraction], .refl _⟩
  | true word | false word | null word =>
      exact ⟨_, _, rfl, by simp [Token.Kind.BeginsItem, word], .refl _⟩
  | array block =>
      obtain ⟨t, later, rfl, opening, leaves⟩ := block.begins inside
      exact ⟨t, later, rfl, by simp [Token.Kind.BeginsItem, opening], leaves⟩
  | object block =>
      obtain ⟨t, later, heq, opening, leaves⟩ := Entry.begins_block inside block
      exact ⟨t, later, heq, by simp [Token.Kind.BeginsItem, opening], leaves⟩
  | annotated word other block =>
      exact ⟨_, _, rfl, by simp [Token.Kind.BeginsItem, word],
        Entry.block_inside inside _ _ _ block⟩
  | extended keyword known opening argument closing =>
      exact ⟨_, _, rfl, by simp [Token.Kind.BeginsItem, keyword], .cons (by simp [opening])
        (.cons (by simp [argument]) (.cons (by simp [closing]) (.refl _)))⟩
  | variant word other dot alternative carried =>
      have leaves := payload_inside inside (Entry.block_inside inside) _ _ _ carried
      exact ⟨_, _, rfl, by simp [Token.Kind.BeginsItem, word],
        (leaves.cons (by simp [alternative])).cons (by simp [dot])⟩

/-- No value begins with another token than a word, a literal or an opening bracket. -/
theorem unexpected_accepts {k : Token.Kind} (word : ∀ text, k ≠ .word text)
    (quoted : ∀ text, k ≠ .quoted text) (integer : ∀ n, k ≠ .integer n)
    (fraction : ∀ text, k ≠ .fraction text) (square : k ≠ .mark (.opening .square))
    (brace : k ≠ .mark (.opening .brace)) :
    ∃ S, Accepts file (Parser.unexpected .value : Parser Form) S ∧ ∀ t later, t.kind = k →
      ∀ form rest, S (t :: later) form rest ↔ Form.Derives file V (t :: later) form rest := by
  refine ⟨_, Accepts.unexpected, fun t later hKind form rest => ?_⟩
  rw [derives_iff_of_no_word (hKind ▸ word), hKind]
  refine ⟨False.elim, ?_⟩
  rintro (⟨text, h, -⟩ | ⟨n, h, -⟩ | ⟨text, _, h, -⟩ | ⟨h, -⟩ | ⟨h, -⟩)
  · exact quoted text h
  · exact integer n h
  · exact fraction text h
  · exact square h
  · exact brace h

/-- The kind of the first token tells every form of a value from the others. -/
theorem parser_accepts (accepts : Accepts file value V) (isItem : V.IsItem) :
    Accepts file (Form.parser value) (Form.Derives file V) := by
  refine Accepts.byKind ?_ fun k => ?_
  · intro form rest h
    obtain ⟨t, later, hNil, -⟩ := isItem_derives isItem.inside _ _ _ h
    cases hNil
  cases k with
  | quoted text =>
      refine ⟨_, Accepts.behind (.pure (Form.string text)), fun t later hKind form rest => ?_⟩
      rw [derives_iff_of_no_word (by simp [hKind])]
      simp [hKind]
  | integer n =>
      refine ⟨_, Accepts.behind (.pure (Form.integer n)), fun t later hKind form rest => ?_⟩
      rw [derives_iff_of_no_word (by simp [hKind])]
      simp [hKind]
  | fraction text =>
      dsimp only
      cases hRead : Number.Binary64.read text.toList with
      | none =>
          refine ⟨_, Accepts.unexpected, fun t later hKind form rest => ?_⟩
          rw [derives_iff_of_no_word (by simp [hKind])]
          simp [hKind, hRead]
      | some x =>
          refine ⟨_, Accepts.behind (.pure (Form.float x)), fun t later hKind form rest => ?_⟩
          rw [derives_iff_of_no_word (by simp [hKind])]
          simp [hKind, hRead]
  | word text => exact wordParser_accepts accepts text
  | endOfInput => apply unexpected_accepts <;> simp
  | mark m =>
      cases m with
      | opening b =>
          cases b with
          | square =>
              refine ⟨_, Accepts.map Form.array (.plainBlock isItem accepts),
                fun t later hKind form rest => ?_⟩
              rw [derives_iff_of_no_word (by simp [hKind])]
              simp [hKind]
          | brace =>
              refine ⟨_, objectParser_accepts accepts none, fun t later hKind form rest => ?_⟩
              rw [derives_iff_of_no_word (by simp [hKind])]
              simp [hKind]
          | round => apply unexpected_accepts <;> simp
      | _ => apply unexpected_accepts <;> simp

end Form

namespace Node

/-- By induction on the room for nesting: a value is read with a parser for its parts that accepts
what they derive. -/
theorem parserAt_accepts (room : Nat) :
    Accepts file (Node.parserAt room) (Node.Derives file room) ∧ (Node.Derives file room).IsItem := by
  induction room with
  | zero =>
      refine ⟨(Accepts.ignoringHere fun _ => Accepts.fail).congr fun _ _ _ => ?_, nofun⟩
      exact Iff.rfl
  | succ room ih =>
      obtain ⟨accepts, isItem⟩ := ih
      constructor
      · refine (Accepts.atHere fun span => Accepts.map (Node.mk · span)
          (Form.parser_accepts accepts isItem)).congr fun input node rest => ?_
        constructor
        · rintro ⟨t, later, rfl, form, rfl, hForm⟩
          exact ⟨by simp, hForm⟩
        · rintro ⟨hSpan, hForm⟩
          obtain ⟨t, later, rfl, -⟩ := Form.isItem_derives isItem.inside _ _ _ hForm
          obtain ⟨form, span⟩ := node
          obtain rfl : span = t.span file := hSpan t rfl
          exact ⟨t, later, rfl, form, rfl, hForm⟩
      · rintro input node rest ⟨-, hForm⟩
        exact Form.isItem_derives isItem.inside _ _ _ hForm

end Node

end TypedConfig
