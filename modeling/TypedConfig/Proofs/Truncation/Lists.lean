import TypedConfig.Proofs.Truncation.Reading
/-!
Blocks and tuples that are cut off. The loop over a block looks for its end behind each item, and
there alone it knows what the end of input means. The loop over a tuple does so, too, but not behind
a comma.
-/
namespace TypedConfig

open TypedConfig.Parser TypedConfig.Token

namespace Token

/-- The tokens end where an item may begin, or behind a whole item. -/
def Rests (tokens : List Token) : Prop :=
  ∃ before last, tokens = before ++ [last] ∧ last.kind ≠ .mark .colon ∧ last.kind ≠ .mark .dot ∧
    last.kind ≠ .mark (.opening .round)

/-- The inside of a block with the bracket that closes it. -/
def Closes (b : Bracket) (tokens : List Token) : Prop :=
  ∃ inner u, tokens = inner ++ [u] ∧ Balanced inner ∧ u.kind = .mark (.closing b)

/-- A whole block. -/
def Enclosed (tokens : List Token) : Prop :=
  ∃ b o inner, tokens = o :: inner ∧ o.kind = .mark (.opening b) ∧ Closes b inner

variable {tokens moved : List Token} {t : Token}

theorem Rests.append (rests : Rests moved) : Rests (tokens ++ moved) := by
  obtain ⟨before, last, rfl, hLast⟩ := rests
  exact ⟨tokens ++ before, last, by simp, hLast⟩

theorem rests_concat : Rests (tokens ++ [t]) ↔ t.kind ≠ .mark .colon ∧ t.kind ≠ .mark .dot ∧
    t.kind ≠ .mark (.opening .round) := by
  constructor
  · rintro ⟨before, last, heq, hLast⟩
    obtain ⟨-, hSame⟩ := List.append_inj' heq rfl
    exact List.singleton_inj.1 hSame ▸ hLast
  · exact fun hLast => ⟨tokens, t, rfl, hLast⟩

theorem Rests.lastKind?_ne (rests : Rests tokens) : lastKind? tokens ≠ some (.mark .colon) ∧
    lastKind? tokens ≠ some (.mark .dot) ∧ lastKind? tokens ≠ some (.mark (.opening .round)) := by
  obtain ⟨before, last, rfl, hColon, hDot, hRound⟩ := rests
  simp [hColon, hDot, hRound]

theorem Enclosed.balanced (enclosed : Enclosed moved) : Balanced moved := by
  obtain ⟨b, o, _, rfl, hOpening, inner, u, rfl, hInner, hClosing⟩ := enclosed
  exact .block hOpening hInner hClosing

theorem Enclosed.exists_last (enclosed : Enclosed moved) :
    ∃ before u b, moved = before ++ [u] ∧ u.kind = .mark (.closing b) := by
  obtain ⟨b, o, _, rfl, hOpening, inner, u, rfl, hInner, hClosing⟩ := enclosed
  exact ⟨o :: inner, u, b, by simp, hClosing⟩

end Token

namespace Cut

variable {α β : Type} {cut : Cut} {behind front moved : List Token} {t o : Token} {S : Prop}
  {N : Token.Kind → Prop} {C : List Token → Prop} {b : Bracket}

/-- A construct that is read in front of the cut. If the cut is right behind it, a block could end
there, provided that the next token is of a kind that may follow. -/
structure Part (cut : Cut) (N : Token.Kind → Prop) (behind moved : List Token) : Prop where
  balanced : Balanced moved
  rests : Rests moved
  pauses : cut.used = behind ++ moved → N cut.next.kind → Pauses cut.used cut.next

/-- What is read up to the cut is no block that is still open, and a block could end there. -/
def Halts (cut : Cut) (front : List Token) : Prop := Balanced front ∧ Pauses cut.used cut.next

theorem Halts.prepend {before : List Token} (halts : cut.Halts front) (balanced : Balanced before) :
    cut.Halts (before ++ front) :=
  ⟨balanced.append halts.1, halts.2⟩

theorem Part.of_enclosed (enclosed : Enclosed moved) : cut.Part N behind moved where
  balanced := enclosed.balanced
  rests := by
    obtain ⟨before, u, b, rfl, hClosing⟩ := enclosed.exists_last
    exact ⟨before, u, rfl, by simp [hClosing]⟩
  pauses hUsed _ := by
    obtain ⟨before, u, b, rfl, hClosing⟩ := enclosed.exists_last
    rw [hUsed, ← List.append_assoc, pauses_concat, hClosing]
    trivial

theorem Part.of_token (plain : t.kind.IsPlain) (colon : t.kind ≠ .mark .colon)
    (dot : t.kind ≠ .mark .dot)
    (pauses : N cut.next.kind → PausesAt behind cut.next.kind t.kind) :
    cut.Part N behind [t] where
  balanced := .one plain
  rests := ⟨[], t, rfl, colon, dot, plain.1 _⟩
  pauses hUsed hNext := by
    rw [hUsed, pauses_concat]
    exact pauses hNext

/-- A construct with balanced tokens in front of it. -/
theorem Part.prepend {before : List Token} (part : cut.Part N (behind ++ before) moved)
    (balanced : Balanced before) : cut.Part N behind (before ++ moved) where
  balanced := balanced.append part.balanced
  rests := part.rests.append
  pauses hUsed := part.pauses (by rw [hUsed, List.append_assoc])

theorem Part.cons (part : cut.Part N (behind ++ [t]) moved) (balanced : Balanced [t]) :
    cut.Part N behind (t :: moved) :=
  part.prepend balanced

/-- The innermost block is reported where its loop comes to the end of input. -/
theorem verdict_unclosed (pauses : Pauses cut.used cut.next) (innermost : Innermost cut.used b o) :
    cut.Verdict ⟨.grammatical (.unclosed b (o.span cut.file)), cut.eof.span cut.file⟩ :=
  .inl ⟨pauses, b, o, innermost, rfl⟩

theorem AtEnd.atClosing {opened : Span} {c : Cursor} (atEnd : cut.AtEnd c) :
    Parser.atClosing b opened c =
      .error ⟨.grammatical (.unclosed b opened), cut.eof.span cut.file⟩ := by
  rcases atClosing_cases b opened c with ⟨hKind, -⟩ | ⟨b', -, hKind, -⟩ | ⟨-, hRun⟩ | ⟨hKind, -, -⟩
  · simp [atEnd.kind] at hKind
  · simp [atEnd.kind] at hKind
  · rw [hRun, atEnd.span]
  · exact absurd atEnd.kind hKind

theorem kind_of_atClosing {opened : Span} {c d : Cursor}
    (closes : Parser.atClosing b opened c = .ok (true, d)) : c.kind = .mark (.closing b) := by
  rcases atClosing_cases b opened c with ⟨hKind, -⟩ | ⟨_, -, -, hRun⟩ | ⟨-, hRun⟩ | ⟨-, -, hRun⟩
  · exact hKind
  all_goals
    rw [hRun] at closes
    cases closes

/-- The end of a block is found alike in front of the cut. -/
theorem Stands.atClosing {opened : Span} {c c' : Cursor} {closes : Bool}
    (stands : cut.Stands (t :: front) c c') {d : Cursor}
    (reads : Parser.atClosing b opened c = .ok (closes, d)) :
    d = c ∧ Parser.atClosing b opened c' = .ok (closes, c') ∧
      (closes = true → t.kind = .mark (.closing b)) := by
  have hSame : Parser.atClosing b opened c' = DoAlike.endsAt b opened t.kind c' := by
    rw [DoAlike.atClosing_eq, stands.kind_eq]
  rw [DoAlike.atClosing_eq, stands.kind] at reads
  rw [hSame]
  cases hKind : t.kind with
  | mark m =>
      rw [hKind] at reads
      cases m with
      | closing b' =>
          by_cases hb : b' = b
          · simp only [DoAlike.endsAt, if_pos hb, pure_eq_ok] at reads ⊢
            exact ⟨reads.2, by simp [reads.1], fun _ => hb ▸ rfl⟩
          · simp [DoAlike.endsAt, if_neg hb] at reads
      | _ =>
          simp only [DoAlike.endsAt, pure_eq_ok] at reads ⊢
          exact ⟨reads.2, by simp [reads.1], by simp [reads.1]⟩
  | endOfInput =>
      rw [hKind] at reads
      simp [DoAlike.endsAt] at reads
  | _ =>
      rw [hKind] at reads
      simp only [DoAlike.endsAt, pure_eq_ok] at reads ⊢
      exact ⟨reads.2, by simp [reads.1], by simp [reads.1]⟩

namespace Reads

/-! ### Blocks -/

/-- A construct of one token. -/
theorem taken {a : α} (part : cut.Part N behind [t]) :
    cut.Reads behind (t :: front) (do Parser.advance; return a) (do Parser.advance; return a)
      (cut.Part N behind) S :=
  advance (pure part)

/-- A construct behind balanced tokens. -/
theorem andThen {Q : List Token → Prop} {S' : Prop} {p q : Parser α} {f g : α → Parser β}
    (first : cut.Reads behind front p q Q S) (balanced : ∀ moved, Q moved → Balanced moved)
    (second : ∀ a moved others, front = moved ++ others → Q moved →
      cut.Reads (behind ++ moved) others (f a) (g a) (cut.Part N (behind ++ moved)) S')
    (ending : S → ∀ a a' d, (∃ b e, f a d = .ok (b, e)) → cut.Ends S' (g a')) :
    cut.Reads behind front (p >>= f) (q >>= g) (cut.Part N behind) S' :=
  first.bind (fun a moved others split read => (second a moved others split read).imp
    (fun _ part => part.prepend (balanced moved read)) id) ending

/-- An item of a block other than a tuple, with the comma that may follow it. -/
theorem separated {item : Parser α}
    (each : cut.Reads behind front item item (cut.Part N behind) (cut.Halts front))
    (innermost : Innermost behind b o) (notRound : b ≠ .round) (comma : N (.mark .comma)) :
    cut.Reads behind front (item <* Parser.optionalMark .comma)
      (item <* Parser.optionalMark .comma) (cut.Part N behind) (cut.Halts front) := by
  rw [seqLeft_eq_bind]
  refine .of_used fun hUsed => each.bind (fun a moved others split part => ?_)
    fun hHalts a a' d _ => ?_
  · refine optionalMark.bind (fun _ more others' split' hMore => pure ?_)
      fun hShort _ _ _ _ => pure_ends ?_
    · rcases hMore with rfl | ⟨u, rfl, hComma⟩
      · simpa using part
      · have hPauses : PausesAt (behind ++ moved) cut.next.kind u.kind := by
          rw [hComma]
          intro o' hRound
          exact notRound ((innermost.append part.balanced).unique hRound).1
        have hPart : cut.Part N (behind ++ moved) [u] :=
          .of_token (by simp [Kind.IsPlain, hComma]) (by simp [hComma]) (by simp [hComma])
            fun _ => hPauses
        simpa using hPart.prepend part.balanced
    · obtain ⟨rfl, hNext⟩ := hShort
      rw [List.append_nil] at split
      subst split
      exact ⟨part.balanced, part.pauses hUsed (hNext ▸ comma)⟩
  · intro c atEnd
    have hRun : (Parser.optionalMark .comma >>= fun _ => Pure.pure a' : Parser α) c =
        .ok (a', c) := by
      have hKind : (Parser.optionalMark .comma) c = (if c.kind = .mark .comma then
          (do Parser.advance; return true) else return false : Parser Bool) c := rfl
      rw [bind_apply, hKind, atEnd.kind, if_neg (by simp)]
      rfl
    exact .inl ⟨a', c, hRun, atEnd, hHalts⟩

end Reads

/-- The loop over a block, which the bracket `o` opens, where `C` holds of what has been read. -/
structure Loop (cut : Cut) (b : Bracket) (o : Token) (C : List Token → Prop)
    (N : Token.Kind → Prop) (item : List α → Parser α) : Prop where
  notRound : b ≠ .round
  keeps : ∀ behind moved, C behind → Balanced moved → C (behind ++ moved)
  closing : N (.mark (.closing b))
  comma : N (.mark .comma)
  starts : ∀ before c a d, item before c = .ok (a, d) → N c.kind
  each : ∀ before behind t front, C behind → Innermost behind b o → Rests behind →
    cut.Reads behind (t :: front) (item before) (item before) (cut.Part N behind)
      (cut.Halts (t :: front))

/-- What is put in front of the list that was read behind it, up to the end of the block. -/
theorem Cutoff.cons {others : List Token} {a : α} {as : List α} {d : Cursor}
    {run : Except Diagnostic (List α × Cursor)} (split : front = moved ++ others)
    (balanced : Balanced moved) :
    cut.Cutoff others (Closes b) False as d run →
      cut.Cutoff front (Closes b) False (a :: as) d (match run with
        | .error d => .error d
        | .ok (as, last) => .ok (a :: as, last)) := by
  intro cutoff
  cases cutoff with
  | stopped verdict => exact .stopped verdict
  | short _ ended => exact ended.elim
  | @passed _ others' _ split' stands closes =>
      obtain ⟨inner, u, rfl, hInner, hClosing⟩ := closes
      have hSplit : front = moved ++ (inner ++ [u]) ++ others' := by simp [split, split']
      exact .passed hSplit stands ⟨moved ++ inner, u, by simp, balanced.append hInner, hClosing⟩

theorem AtEnd.itemsFrom {opened : Span} {item : List α → Parser α} {before : List α} {c : Cursor}
    (atEnd : cut.AtEnd c) : Parser.itemsFrom b opened item before c =
      .error ⟨.grammatical (.unclosed b opened), cut.eof.span cut.file⟩ := by
  rw [Parser.itemsFrom, atEnd.atClosing]

theorem Stands.length_lt_of_atEnd {c c' e : Cursor} (stands : cut.Stands (t :: front) c c')
    (atEnd : cut.AtEnd e) : e.later.length < c'.later.length := by
  have hNil : e.later = [] := (List.cons.inj atEnd.tokens).2
  rw [hNil, stands.length_eq.2]
  simp

/-- What follows an item, or the opening bracket, if the loop goes on. -/
theorem Loop.next {item : List α → Parser α} (loop : cut.Loop b o C N item) {opened : Span}
    {before as : List α} {c c' d : Cursor} (stands : cut.Stands [] c c')
    (reads : Parser.itemsFrom b opened item before c = .ok (as, d)) : N cut.next.kind := by
  rw [← stands.kind_next]
  cases as with
  | nil =>
      obtain ⟨e, hClosing, -⟩ := itemsFrom_nil_eq_ok.1 reads
      exact kind_of_atClosing hClosing ▸ loop.closing
  | cons a as =>
      obtain ⟨e, next, -, hItem, -, -⟩ := itemsFrom_cons_eq_ok.1 reads
      rw [seqLeft_eq_bind, bind_eq_ok] at hItem
      obtain ⟨a', d', hRun, -⟩ := hItem
      exact loop.starts before c a' d' hRun

/-- By induction on the tokens in front of the cut. -/
theorem Reads.itemsFrom {item : List α → Parser α} (loop : cut.Loop b o C N item)
    (before : List α) (context : C behind) (innermost : Innermost behind b o)
    (rests : Rests behind)
    (ready : cut.used = behind → N cut.next.kind → Pauses cut.used cut.next) :
    cut.Reads behind front (Parser.itemsFrom b (o.span cut.file) item before)
      (Parser.itemsFrom b (o.span cut.file) item before) (Closes b) False := by
  induction hLength : front.length using Nat.strongRecOn generalizing front behind before with
  | _ n ih =>
      intro hUsed c c' stands as d hRun
      cases front with
      | nil =>
          have hUsed' : cut.used = behind := by simpa using hUsed
          rw [stands.atEnd.itemsFrom]
          exact .stopped (verdict_unclosed (ready hUsed' (loop.next stands hRun))
            (hUsed' ▸ innermost))
      | cons t front =>
          cases as with
          | nil =>
              obtain ⟨e, hClosing, rfl⟩ := itemsFrom_nil_eq_ok.1 hRun
              obtain ⟨rfl, hClosing', hKind⟩ := stands.atClosing hClosing
              rw [Parser.itemsFrom, hClosing']
              exact .passed (List.singleton_append).symm stands.advance
                ⟨[], t, rfl, .nil, hKind rfl⟩
          | cons a as =>
              obtain ⟨e, next, hClosing, hItem, hLess, hRest⟩ := itemsFrom_cons_eq_ok.1 hRun
              obtain ⟨rfl, hClosing', -⟩ := stands.atClosing hClosing
              have hReads := (loop.each before behind t front context innermost rests).separated
                innermost loop.notRound loop.comma
              have hCutoff := hReads hUsed e c' stands a next hItem
              rw [Parser.itemsFrom, hClosing']
              generalize (item before <* Parser.optionalMark .comma) c' = run at hCutoff
              cases hCutoff with
              | stopped verdict => exact .stopped verdict
              | short atEnd halts =>
                  have hShorter := stands.length_lt_of_atEnd atEnd
                  simp only [if_pos hShorter, atEnd.itemsFrom]
                  exact .stopped (verdict_unclosed halts.2 (hUsed ▸ innermost.append halts.1))
              | @passed moved others next' split stands' part =>
                  have hLess' : next'.later.length < c'.later.length := by
                    have hBoth := stands.length_eq
                    have hNext := stands'.length_eq
                    omega
                  have hOthers : others.length < n := by
                    have hBoth := stands.length_eq
                    have hNext := stands'.length_eq
                    omega
                  have hAll := ih _ hOthers (a :: before) (loop.keeps _ _ context part.balanced)
                    (innermost.append part.balanced) part.rests.append part.pauses rfl
                    (by rw [hUsed, split, List.append_assoc]) next next' stands' as d hRest
                  simp only [if_pos hLess']
                  exact .cons split part.balanced hAll

namespace Reads

theorem mark_opening :
    cut.Reads behind (t :: front) (Parser.mark (.opening b)) (Parser.mark (.opening b))
      (fun moved => moved = [t] ∧ t.kind = .mark (.opening b)) S := by
  refine kind ?_
  by_cases hKind : t.kind = .mark (.opening b)
  · rw [if_pos hKind]
    exact advance (f := Pure.pure) (g := Pure.pure) (pure ⟨rfl, hKind⟩)
  · rw [if_neg hKind]
    exact of_unexpected

/-- What is read behind the opening bracket, up to the bracket that closes the block. -/
theorem enclosed {p q : Parser α} (inside : t.kind = .mark (.opening b) →
      cut.Reads (behind ++ [t]) front p q (Closes b) False) :
    cut.Reads behind (t :: front) (Parser.mark (.opening b) >>= fun _ => p)
      (Parser.mark (.opening b) >>= fun _ => q) Enclosed False := by
  refine (mark_opening (S := False)).bind (fun _ moved others split hMoved => ?_) False.elim
  obtain ⟨rfl, hKind⟩ := hMoved
  obtain rfl := (List.cons.inj split).2
  exact (inside hKind).imp (fun _ closes => ⟨b, t, _, rfl, hKind, closes⟩) id

/-- The loop over a block begins behind the opening bracket. -/
theorem opened {item : List α → Parser α} (opening : o.kind = .mark (.opening b))
    (loop : cut.Loop b o C N item) (context : C (behind ++ [o]))
    (declaring : b = .square → ¬ Declaring behind) :
    cut.Reads (behind ++ [o]) front (Parser.itemsFrom b (o.span cut.file) item [])
      (Parser.itemsFrom b (o.span cut.file) item []) (Closes b) False := by
  have hRound := loop.notRound
  refine itemsFrom loop [] context (.concat opening) (rests_concat.2 ?_) fun hUsed _ => ?_
  · simp [opening, hRound]
  · rw [hUsed, pauses_concat, opening]
    cases b with
    | brace => trivial
    | square => exact declaring rfl
    | round => exact absurd rfl hRound

theorem block {item : List α → Parser α} (loop : o.kind = .mark (.opening b) →
      cut.Loop b o C N item) (context : o.kind = .mark (.opening b) → C (behind ++ [o]))
    (declaring : b = .square → ¬ Declaring behind) :
    cut.Reads behind (o :: front) (Parser.block b item) (Parser.block b item) Enclosed False :=
  here (enclosed fun hOpening => opened hOpening (loop hOpening) (context hOpening) declaring)

/-- The bracket that closes a block is all that may stand behind its inside. -/
theorem closing {a : α} {expected : Expectation} (innermost : Innermost behind b o)
    (pauses : cut.used = behind → cut.next.kind = .mark (.closing b) →
      Pauses cut.used cut.next) :
    cut.Reads behind front
      (Parser.atClosing b (o.span cut.file) >>= fun closes =>
        if closes then (do Parser.advance; return a) else Parser.unexpected expected)
      (Parser.atClosing b (o.span cut.file) >>= fun closes =>
        if closes then (do Parser.advance; return a) else Parser.unexpected expected)
      (Closes b) False := by
  intro hUsed c c' stands y d hRun
  obtain ⟨closes, e, hClosing, hRest⟩ := bind_eq_ok.1 hRun
  obtain rfl : closes = true := by
    cases closes with
    | true => rfl
    | false => simp at hRest
  rw [bind_apply]
  cases front with
  | nil =>
      have hUsed' : cut.used = behind := by simpa using hUsed
      rw [stands.atEnd.atClosing]
      exact .stopped (verdict_unclosed
        (pauses hUsed' (stands.kind_next ▸ kind_of_atClosing hClosing)) (hUsed' ▸ innermost))
  | cons t front =>
      obtain ⟨rfl, hClosing', hKind⟩ := stands.atClosing hClosing
      have hTakes : ∀ e, (do Parser.advance; return a : Parser α) e = .ok (a, e.advance) :=
        fun _ => rfl
      simp only [if_true, hTakes] at hRest
      simp only [hClosing', if_true, hTakes]
      cases hRest
      exact .passed (List.singleton_append).symm stands.advance ⟨[], t, rfl, .nil, hKind rfl⟩

/-! ### Tuples -/

end Reads

/-- The loop over a tuple, which the bracket `o` opens, where `C` holds of what has been read. -/
structure SlotLoop (cut : Cut) (o : Token) (C : List Token → Prop) (N : Token.Kind → Prop)
    (slot : Parser α) : Prop where
  keeps : ∀ behind moved, C behind → Balanced moved → C (behind ++ moved)
  closing : N (.mark (.closing .round))
  comma : N (.mark .comma)
  stops : Stops slot
  each : ∀ behind t front, C behind → Innermost behind .round o →
    lastKind? behind = some (.mark .comma) ∨ lastKind? behind = some (.mark (.opening .round)) →
    cut.Reads behind (t :: front) slot slot (cut.Part N behind) (cut.Halts (t :: front))

theorem same_end {p : Parser α} {c d d' : Cursor} {a a' : α} (left : p c = .ok (a, d))
    (right : p c = .ok (a', d')) : d = d' := by
  rw [left] at right
  cases right
  rfl

/-- The loop over a tuple does not go on at the end of input. -/
theorem AtEnd.slotsFrom {opened : Span} {slot : Parser α} {c d : Cursor} {a : α}
    (atEnd : cut.AtEnd d) (runs : slot c = .ok (a, d)) : Parser.slotsFrom opened slot c =
      .error ⟨.grammatical (.unclosed .round opened), cut.eof.span cut.file⟩ := by
  rw [Parser.slotsFrom, runs]
  have hKind : d.kind ≠ .mark .comma := by simp [atEnd.kind]
  simp only [if_neg hKind, atEnd.atClosing]

namespace Reads

/-- A slot that was read whole. At the cut its tuple is still open; before that it is closed, or a
comma leads to further slots. -/
theorem slotPassed {slot : Parser α} (loop : cut.SlotLoop o C N slot) (context : C behind)
    (innermost : Innermost behind .round o) {others : List Token} {c c' next next' d : Cursor}
    {a : α} {as : List α} (hUsed : cut.used = behind ++ moved ++ others)
    (stands : cut.Stands (moved ++ others) c c') (stands' : cut.Stands others next next')
    (part : cut.Part N behind moved) (reads : slot c = .ok (a, next))
    (reads' : slot c' = .ok (a, next'))
    (runs : Parser.slotsFrom (o.span cut.file) slot c = .ok (a :: as, d))
    (further : ∀ behind rest, rest.length < (moved ++ others).length → C behind →
      Innermost behind .round o → lastKind? behind = some (.mark .comma) →
      (cut.used = behind → ¬ Pauses cut.used cut.next) →
      cut.Reads behind rest (Parser.slotsFrom (o.span cut.file) slot)
        (Parser.slotsFrom (o.span cut.file) slot) (Closes .round) False) :
    cut.Cutoff (moved ++ others) (Closes .round) False (a :: as) d
      (Parser.slotsFrom (o.span cut.file) slot c') := by
  have hInner := innermost.append part.balanced
  rw [slotsFrom_eq_ok] at runs
  cases others with
  | nil =>
      have hKind : N cut.next.kind := by
        rw [← stands'.kind_next]
        rcases runs with ⟨-, next₁, e, hSlot, -, hClosing, -⟩ | ⟨next₁, hSlot, hComma, -⟩
        · exact same_end hSlot reads ▸ kind_of_atClosing hClosing ▸ loop.closing
        · exact same_end hSlot reads ▸ hComma ▸ loop.comma
      rw [List.append_nil] at hUsed
      rw [stands'.atEnd.slotsFrom reads']
      exact .stopped (verdict_unclosed (part.pauses hUsed hKind) (hUsed ▸ hInner))
  | cons u others =>
      have hSplit : moved ++ u :: others = (moved ++ [u]) ++ others := by simp
      rcases runs with ⟨rfl, next₁, e, hSlot, hOther, hClosing, rfl⟩ |
        ⟨next₁, hSlot, hComma, -, hRest⟩
      · obtain rfl := same_end hSlot reads
        obtain ⟨rfl, hClosing', hKind⟩ := stands'.atClosing hClosing
        rw [stands'.kind, ← stands'.kind_eq] at hOther
        rw [Parser.slotsFrom, reads']
        simp only [if_neg hOther, hClosing']
        exact .passed hSplit stands'.advance ⟨moved, u, rfl, part.balanced, hKind rfl⟩
      · obtain rfl := same_end hSlot reads
        rw [stands'.kind] at hComma
        have hOne : Balanced [u] := .one (by simp [Kind.IsPlain, hComma])
        have hStuck : cut.used = behind ++ moved ++ [u] → ¬ Pauses cut.used cut.next := by
          intro hCut
          rw [hCut, pauses_concat, hComma]
          exact fun hNone => hNone o hInner
        have hRounds := further (behind ++ moved ++ [u]) others (by simp; omega)
          (loop.keeps _ _ (loop.keeps _ _ context part.balanced) hOne) (hInner.append hOne)
          (by rw [lastKind?_concat, hComma]) hStuck (by simpa using hUsed) _ _ stands'.advance _ _
          hRest
        have hLess : next'.advance.later.length < c'.later.length := by
          rw [stands.length_eq.2, stands'.advance.length_eq.2]
          simp
          omega
        rw [Parser.slotsFrom, reads']
        simp only [if_pos (stands'.kind_eq.trans hComma), if_pos hLess]
        exact .cons hSplit (part.balanced.append hOne) hRounds

/-- By induction on the tokens in front of the cut. A slot begins behind the opening bracket or
behind a comma, and there the end of input is no slot. -/
theorem slotsFrom {slot : Parser α} (loop : cut.SlotLoop o C N slot) (context : C behind)
    (innermost : Innermost behind .round o)
    (begins : lastKind? behind = some (.mark .comma) ∨
      lastKind? behind = some (.mark (.opening .round)))
    (stuck : cut.used = behind → ¬ Pauses cut.used cut.next) :
    cut.Reads behind front (Parser.slotsFrom (o.span cut.file) slot)
      (Parser.slotsFrom (o.span cut.file) slot) (Closes .round) False := by
  induction hLength : front.length using Nat.strongRecOn generalizing front behind with
  | _ n ih =>
      intro hUsed c c' stands as d hRun
      cases front with
      | nil =>
          obtain ⟨e, hStop, hCode⟩ := loop.stops c' stands.atEnd.kind
          rw [Parser.slotsFrom, hStop]
          exact .stopped (.inr ⟨stuck (by simpa using hUsed), hCode⟩)
      | cons t front =>
          cases as with
          | nil => exact absurd hRun slotsFrom_ne_nil
          | cons a as =>
              obtain ⟨next, hSlot⟩ : ∃ next, slot c = .ok (a, next) := by
                rcases slotsFrom_eq_ok.1 hRun with ⟨-, next, e, hSlot, -⟩ | ⟨next, hSlot, -⟩
                · exact ⟨next, hSlot⟩
                · exact ⟨next, hSlot⟩
              have hCutoff := loop.each behind t front context innermost begins hUsed c c' stands a
                next hSlot
              cases hSlot' : slot c' with
              | error e =>
                  rw [hSlot'] at hCutoff
                  cases hCutoff with
                  | stopped verdict =>
                      rw [Parser.slotsFrom, hSlot']
                      exact .stopped verdict
              | ok read =>
                  rw [hSlot'] at hCutoff
                  cases hCutoff with
                  | short atEnd halts =>
                      rw [atEnd.slotsFrom hSlot']
                      exact .stopped (verdict_unclosed halts.2 (hUsed ▸ innermost.append halts.1))
                  | @passed moved others next' split stands' part =>
                      rw [split] at stands hUsed hLength ⊢
                      rw [← List.append_assoc] at hUsed
                      exact slotPassed loop context innermost hUsed stands stands' part hSlot hSlot'
                        hRun fun behind rest hLess hContext hInner hComma hStuck =>
                          ih rest.length (hLength ▸ hLess) hContext hInner (.inl hComma) hStuck rfl

theorem tuple {slot : Parser α} (loop : o.kind = .mark (.opening .round) →
      cut.SlotLoop o C N slot) (context : C (behind ++ [o])) :
    cut.Reads behind (o :: front) (Parser.tuple slot) (Parser.tuple slot) Enclosed False := by
  refine here (enclosed fun hOpening => slotsFrom (loop hOpening) context (.concat hOpening)
    (.inr (by rw [lastKind?_concat, hOpening])) fun hUsed => ?_)
  rw [hUsed, pauses_concat, hOpening]
  exact id

/-- What an alternative carries. Nothing is carried at the end of input, and the name in front of it
is a whole item, whatever follows without the cut. -/
theorem payload {slot : Parser α} {fields : Parser (List β)}
    {f : Token.Kind → Parser (TypedConfig.Payload α β)}
    (round : f (.mark (.opening .round)) = (do return .tuple (← Parser.tuple slot)))
    (brace : f (.mark (.opening .brace)) = (do return .fields (← fields)))
    (other : ∀ k, k ≠ .mark (.opening .round) → k ≠ .mark (.opening .brace) → f k = return .unit)
    (slots : ∀ t others, front = t :: others → t.kind = .mark (.opening .round) →
      cut.Reads behind front (Parser.tuple slot) (Parser.tuple slot) Enclosed False)
    (block : ∀ t others, front = t :: others → t.kind = .mark (.opening .brace) →
      cut.Reads behind front fields fields Enclosed False)
    (ended : front = [] → (∃ b, cut.next.kind = .mark (.opening b)) → S) :
    cut.Reads behind front (Parser.kind >>= f) (Parser.kind >>= f)
      (fun moved => moved = [] ∨ Enclosed moved) S := by
  cases front with
  | nil =>
      refine kind_cut ?_
      rw [other .endOfInput (by simp) (by simp)]
      by_cases hNext : ∃ b, cut.next.kind = .mark (.opening b)
      · intro _ c c' stands a d _
        exact .short stands.atEnd (ended rfl hNext)
      · rw [other cut.next.kind (fun h => hNext ⟨_, h⟩) fun h => hNext ⟨_, h⟩]
        exact pure (.inl rfl)
  | cons t front =>
      refine kind ?_
      by_cases hRound : t.kind = .mark (.opening .round)
      · rw [hRound, round]
        exact ((slots t front rfl hRound).map).imp (fun _ => .inr) False.elim
      · by_cases hBrace : t.kind = .mark (.opening .brace)
        · rw [hBrace, brace]
          exact ((block t front rfl hBrace).map).imp (fun _ => .inr) False.elim
        · rw [other _ hRound hBrace]
          exact pure (.inl rfl)

/-! ### Constructs that begin with a mark -/

/-- By induction on the tokens in front of the cut, none of which the loop stops at, as no block is
open between the constructs. -/
theorem startingWith {m : Mark} {item : Parser α} (balanced : ∀ behind, C behind → Balanced behind)
    (each : ∀ behind t front, C behind → cut.Reads behind (t :: front) item item
      (fun moved => C (behind ++ moved)) False) (context : C behind) :
    cut.Reads behind front (Parser.startingWith m item) (Parser.startingWith m item)
      (fun moved => C (behind ++ moved)) False := by
  induction hLength : front.length using Nat.strongRecOn generalizing front behind with
  | _ n ih =>
      cases front with
      | nil => exact of_balanced (balanced behind context)
      | cons t front =>
          intro hUsed c c' stands as d hRun
          cases as with
          | nil =>
              obtain ⟨rfl, hKind⟩ := startingWith_nil_eq_ok.1 hRun
              rw [stands.kind] at hKind
              have hEmpty : Parser.startingWith m item c' = .ok ([], c') :=
                startingWith_nil_eq_ok.2 ⟨rfl, stands.kind_eq.symm ▸ hKind⟩
              rw [hEmpty]
              exact .passed (List.nil_append _).symm stands (by simpa using context)
          | cons a as =>
              obtain ⟨hKind, next, hItem, hNext⟩ := startingWith_cons_eq_ok.1 hRun
              have hCutoff := each behind t front context hUsed c c' stands a next hItem
              rw [stands.kind] at hKind
              rw [Parser.startingWith, if_pos (stands.kind_eq.trans hKind)]
              generalize item c' = run at hCutoff
              cases hCutoff with
              | stopped verdict => exact .stopped verdict
              | short _ ended => exact ended.elim
              | @passed moved others next' split stands' read =>
                  have hBoth := stands.length_eq
                  have hOthers := stands'.length_eq
                  rcases hNext with ⟨hLess, hRest⟩ | ⟨hSame, rfl, rfl⟩
                  · have hRounds := ih others.length (by omega) read rfl
                      (by rw [hUsed, split, List.append_assoc]) _ _ stands' _ _ hRest
                    have hLess' : next'.later.length < c'.later.length := by omega
                    simp only [if_pos hLess']
                    generalize Parser.startingWith m item next' = run at hRounds
                    cases hRounds with
                    | stopped verdict => exact .stopped verdict
                    | short _ ended => exact ended.elim
                    | passed split' stands'' read' =>
                        exact .passed (by rw [split, split', List.append_assoc]) stands''
                          (by rwa [List.append_assoc] at read')
                  · have hSame' : ¬ next'.later.length < c'.later.length := by omega
                    simp only [if_neg hSame']
                    exact .passed split stands' read

end Reads

end Cut

end TypedConfig
