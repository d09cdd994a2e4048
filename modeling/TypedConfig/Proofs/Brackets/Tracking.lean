import TypedConfig.Proofs.Brackets
import TypedConfig.Proofs.Comparison.Reading
import TypedConfig.Proofs.Grammar.Lists
import TypedConfig.Proofs.Places
/-!
Parsers keep no list of the open brackets, yet the block that is read is always the innermost one
that is open. So what was open in front of a construct is open behind it, and brackets are reported
as unbalanced only where they are. That is kept when parsers are put together.
-/
namespace TypedConfig

/-- The code of a report that brackets do not fit. -/
def Diagnostic.IsUnbalanced (d : Diagnostic) : Prop := d.cause.code = "UnbalancedBraces"

namespace Parser

variable {α β : Type} {s s' s'' : List Bracket} {t : Token} {input later : List Token}

/-- The end of a reading of the given tokens with the brackets `s` open in front of them: what is
left stands behind the brackets `s'`, or the tokens are not balanced if that is reported. -/
def Fits (s : List Bracket) (input : List Token) (s' : List Bracket) :
    Except Diagnostic (α × Cursor) → Prop :=
  TypedConfig.Outcome (fun d => d.IsUnbalanced → Token.openBehind? s input ≠ some [])
    fun read => Token.Leaves input read.2.tokens ∧
      Token.openBehind? s input = Token.openBehind? s' read.2.tokens

/-- A parser of closed tokens finds the brackets `s` open in front of them and leaves `s'` open. -/
def Tracks (s : List Bracket) (input : List Token) (p : Parser α) (s' : List Bracket) : Prop :=
  ∀ c : Cursor, c.tokens = input → Token.Closed input → Fits s input s' (p c)

/-- What is read behind tokens that fit. -/
theorem Fits.behind {rest : List Token} {run : Except Diagnostic (α × Cursor)}
    (leaves : Token.Leaves input rest)
    (opens : Token.openBehind? s input = Token.openBehind? s' rest) (fits : Fits s' rest s'' run) :
    Fits s input s'' run := by
  cases run with
  | error d => exact fun code => opens ▸ fits code
  | ok read => exact ⟨leaves.trans fits.1, opens.trans fits.2⟩

/-- What is put in front of the list that was read behind it. -/
theorem Fits.cons {a : α} {others : Except Diagnostic (List α × Cursor)}
    (fits : Fits s input s' others) :
    Fits s input s' (match others with
      | .error d => .error d
      | .ok (as, last) => .ok (a :: as, last)) := by
  cases others with
  | error d => exact fits
  | ok read => exact fits

/-- What is done with what was read, if something was. -/
theorem Tracks.step {p : Parser α} {c : Cursor} {next : α → Cursor → Except Diagnostic (β × Cursor)}
    (first : Tracks s c.tokens p s') (closed : Token.Closed c.tokens)
    (others : ∀ a d, p c = .ok (a, d) → Token.Leaves c.tokens d.tokens → Token.Closed d.tokens →
      Fits s' d.tokens s'' (next a d)) :
    Fits s c.tokens s'' (match p c with
      | .error d => .error d
      | .ok (a, d) => next a d) := by
  have hFirst := first c rfl closed
  cases hRun : p c with
  | error e =>
      rw [hRun] at hFirst
      exact hFirst
  | ok read =>
      obtain ⟨a, d⟩ := read
      rw [hRun] at hFirst
      obtain ⟨hLeaves, hOpen⟩ := hFirst
      exact (others a d hRun hLeaves (closed.of_leaves hLeaves)).behind hLeaves hOpen

/-- A parser behind another one goes on where that one stopped. -/
theorem bind_apply (p : Parser α) (q : α → Parser β) (c : Cursor) :
    (p >>= q) c = match p c with
      | .error d => .error d
      | .ok (a, d) => q a d := by
  simp only [Bind.bind, StateT.bind, Except.bind]
  cases p c <;> rfl

/-- How the end of a block is looked for at a token. -/
theorem atClosing_cases (b : Bracket) (opened : Span) (c : Cursor) :
    (c.kind = .mark (.closing b) ∧ atClosing b opened c = .ok (true, c)) ∨
    (∃ b', b' ≠ b ∧ c.kind = .mark (.closing b') ∧
      atClosing b opened c = .error ⟨.grammatical (.wrongCloser b' b opened), c.span⟩) ∨
    (c.kind = .endOfInput ∧
      atClosing b opened c = .error ⟨.grammatical (.unclosed b opened), c.span⟩) ∨
    (c.kind ≠ .endOfInput ∧ (∀ b', c.kind ≠ .mark (.closing b')) ∧
      atClosing b opened c = .ok (false, c)) := by
  rw [DoAlike.atClosing_eq]
  cases hKind : c.kind with
  | mark m =>
      cases m with
      | closing b' =>
          by_cases hSame : b' = b
          · subst hSame
            exact .inl ⟨rfl, by simp only [DoAlike.endsAt, if_pos]; rfl⟩
          · exact .inr (.inl ⟨b', hSame, rfl, by simp only [DoAlike.endsAt, if_neg hSame]; rfl⟩)
      | _ => exact .inr (.inr (.inr ⟨by simp, by simp, rfl⟩))
  | endOfInput => exact .inr (.inr (.inl ⟨rfl, rfl⟩))
  | _ => exact .inr (.inr (.inr ⟨by simp, by simp, rfl⟩))

/-- A block that is open at the end of input, or at a bracket of another kind, is not balanced. -/
theorem fits_atClosing {b : Bracket} {opened : Span} {c : Cursor} (closed : Token.Closed c.tokens) :
    Fits (b :: s) c.tokens (b :: s) (atClosing b opened c) := by
  rcases atClosing_cases b opened c with
    ⟨-, hRun⟩ | ⟨b', hWrong, hKind, hRun⟩ | ⟨hKind, hRun⟩ | ⟨-, -, hRun⟩
  · rw [hRun]
    exact ⟨.refl _, rfl⟩
  · rw [hRun]
    intro _
    rw [Cursor.tokens, Token.openBehind?_wrong hKind hWrong]
    simp
  · rw [hRun]
    intro _
    have hPlain : c.current.kind.IsPlain := by
      have hEnd : c.current.kind = .endOfInput := hKind
      simp [Token.Kind.IsPlain, hEnd]
    rw [Cursor.tokens, closed.later_eq_nil hKind, Token.openBehind?_plain hPlain]
    simp [Token.openBehind?]
  · rw [hRun]
    exact ⟨.refl _, rfl⟩

namespace Tracks

theorem bind {p : Parser α} {q : α → Parser β} (first : Tracks s input p s')
    (second : ∀ a rest, Tracks s' rest (q a) s'') : Tracks s input (p >>= q) s'' := by
  rintro c rfl closed
  rw [bind_apply]
  exact step first closed fun a d _ _ hClosed => second a _ d rfl hClosed

theorem pure {a : α} : Tracks s input (Pure.pure a : Parser α) s := by
  rintro c rfl -
  exact ⟨.refl _, rfl⟩

theorem fail {fault : SyntaxFault} {span : Span} (code : fault.code ≠ "UnbalancedBraces") :
    Tracks s input (Parser.fail fault span : Parser α) s' :=
  fun _ _ _ hCode => absurd hCode code

theorem unexpected {expected : Expectation} :
    Tracks s input (Parser.unexpected expected : Parser α) s' :=
  fun _ _ _ hCode => absurd hCode (by simp [Diagnostic.IsUnbalanced, Cause.code, SyntaxFault.code])

theorem ite {condition : Prop} [Decidable condition] {p q : Parser α}
    (yes : condition → Tracks s input p s') (no : ¬ condition → Tracks s input q s') :
    Tracks s input (if condition then p else q) s' := by
  split
  · next h => exact yes h
  · next h => exact no h

theorem here {f : Span → Parser β} (next : ∀ span, Tracks s input (f span) s') :
    Tracks s input (Parser.here >>= f) s' :=
  fun c hTokens closed => next c.span c hTokens closed

theorem kind {f : Token.Kind → Parser β}
    (next : ∀ t later, input = t :: later → Tracks s (t :: later) (f t.kind) s') :
    Tracks s input (Parser.kind >>= f) s' := by
  rintro c rfl closed
  exact next c.current c.later rfl c rfl closed

theorem nextKind {f : Token.Kind → Parser β}
    (next : ∀ t later, input = t :: later → Tracks s input (f (later.head?.getD t).kind) s') :
    Tracks s input (Parser.nextKind >>= f) s' := by
  rintro c rfl closed
  exact next c.current c.later rfl c rfl closed

/-- Taking a token that opens and closes as told. -/
theorem advance {f : Unit → Parser β} (inside : t.kind ≠ .endOfInput)
    (opens : ∀ rest, Token.openBehind? s (t :: rest) = Token.openBehind? s' rest)
    (next : Tracks s' later (f ()) s'') :
    Tracks s (t :: later) (Parser.advance >>= f) s'' := by
  intro c hTokens closed
  have hAdvance : c.advance.tokens = later := by
    rw [tokens_advance (hTokens ▸ closed), hTokens, Token.past_cons inside]
  exact (next c.advance hAdvance (closed.of_cons inside)).behind
    ((Token.Leaves.refl later).cons inside) (opens later)

theorem advance_plain {f : Unit → Parser β} (inside : t.kind ≠ .endOfInput)
    (plain : t.kind.IsPlain) (next : Tracks s later (f ()) s') :
    Tracks s (t :: later) (Parser.advance >>= f) s' :=
  advance inside (fun _ => Token.openBehind?_plain plain) next

theorem advance_word {f : Unit → Parser β} {text : String} (word : t.kind = .word text)
    (next : Tracks s later (f ()) s') : Tracks s (t :: later) (Parser.advance >>= f) s' :=
  advance_plain (by simp [word]) (by simp [Token.Kind.IsPlain, word]) next

theorem advance_opening {b : Bracket} {f : Unit → Parser β} (opening : t.kind = .mark (.opening b))
    (next : Tracks (b :: s) later (f ()) s') : Tracks s (t :: later) (Parser.advance >>= f) s' :=
  advance (by simp [opening]) (fun _ => Token.openBehind?_opening opening) next

theorem advance_closing {b : Bracket} {f : Unit → Parser β} (closing : t.kind = .mark (.closing b))
    (next : Tracks s later (f ()) s') :
    Tracks (b :: s) (t :: later) (Parser.advance >>= f) s' :=
  advance (by simp [closing]) (fun _ => Token.openBehind?_closing closing) next

/-- A mark that is no bracket. -/
theorem mark {m : Mark} (plain : Token.Kind.IsPlain (.mark m)) :
    Tracks s input (Parser.mark m) s := by
  refine kind fun t later _ => ite (fun hKind => ?_) fun _ => unexpected
  exact advance_plain (f := Pure.pure) (by simp [hKind]) (hKind ▸ plain) pure

theorem mark_opening {b : Bracket} : Tracks s input (Parser.mark (.opening b)) (b :: s) := by
  refine kind fun t later _ => ite (fun hKind => ?_) fun _ => unexpected
  exact advance_opening (f := Pure.pure) hKind pure

theorem word : Tracks s input Parser.word s := by
  refine kind fun t later _ => ?_
  split
  · next text hKind => exact advance_word hKind pure
  · exact unexpected

theorem quoted : Tracks s input Parser.quoted s := by
  refine kind fun t later _ => ?_
  split
  · next text hKind =>
    exact advance_plain (by simp [hKind]) (by simp [Token.Kind.IsPlain, hKind]) pure
  · exact unexpected

theorem optionalMark {m : Mark} (plain : Token.Kind.IsPlain (.mark m)) :
    Tracks s input (Parser.optionalMark m) s := by
  refine kind fun t later _ => ite (fun hKind => ?_) fun _ => pure
  exact advance_plain (by simp [hKind]) (hKind ▸ plain) pure

/-- The bracket that closes the innermost block is taken, or something else stands there. -/
theorem closing {b : Bracket} {opened : Span} {f : Bool → Parser β} {g : Unit → Parser β}
    (takes : f true = Parser.advance >>= g) (next : ∀ rest, Tracks s rest (g ()) s')
    (others : ∀ t later, Tracks (b :: s) (t :: later) (f false) s') :
    Tracks (b :: s) input (Parser.atClosing b opened >>= f) s' := by
  rintro c rfl closed
  have hFits : Fits (b :: s) c.tokens (b :: s) (Parser.atClosing b opened c) :=
    fits_atClosing closed
  rw [bind_apply]
  rcases atClosing_cases b opened c with ⟨hKind, hRun⟩ | ⟨b', -, -, hRun⟩ | ⟨-, hRun⟩ | ⟨-, -, hRun⟩
  · rw [hRun]
    simp only [takes]
    exact advance_closing hKind (next c.later) c rfl closed
  · rw [hRun] at hFits ⊢
    exact hFits
  · rw [hRun] at hFits ⊢
    exact hFits
  · rw [hRun]
    exact others _ _ c rfl closed

/-! ### Lists -/

/-- By induction on the tokens: the items leave the block open, and each of them takes a token, so
that the report of an item that takes none does not come. -/
theorem itemsFrom {b : Bracket} {opened : Span} {item : List α → Parser α}
    (each : ∀ before input, Tracks (b :: s) input (item before) (b :: s))
    (moves : ∀ before c a d, Token.Closed c.tokens →
      (item before <* Parser.optionalMark .comma) c = .ok (a, d) →
        d.later.length < c.later.length)
    (before : List α) : Tracks (b :: s) input (Parser.itemsFrom b opened item before) s := by
  rintro c rfl closed
  induction hLength : c.later.length using Nat.strongRecOn generalizing c before with
  | _ n ih =>
      have hItem : Tracks (b :: s) c.tokens (item before <* Parser.optionalMark .comma) (b :: s) :=
        (each before _).bind fun a rest =>
          (optionalMark (by simp [Token.Kind.IsPlain])).bind fun _ _ => pure
      have hFits : Fits (b :: s) c.tokens (b :: s) (Parser.atClosing b opened c) :=
        fits_atClosing closed
      rw [Parser.itemsFrom]
      rcases atClosing_cases b opened c with
        ⟨hKind, hRun⟩ | ⟨b', -, -, hRun⟩ | ⟨-, hRun⟩ | ⟨-, -, hRun⟩
      · rw [hRun]
        exact advance_closing (f := fun _ => Pure.pure []) hKind pure c rfl closed
      · rw [hRun] at hFits ⊢
        exact hFits
      · rw [hRun] at hFits ⊢
        exact hFits
      · rw [hRun]
        refine step hItem closed fun a next hNext _ hClosed => ?_
        have hLess := moves before c a next closed hNext
        rw [if_pos hLess]
        exact (ih _ (hLength ▸ hLess) (a :: before) next hClosed rfl).cons

theorem block {b : Bracket} {item : List α → Parser α}
    (each : ∀ before input, Tracks (b :: s) input (item before) (b :: s))
    (moves : ∀ before c a d, Token.Closed c.tokens →
      (item before <* Parser.optionalMark .comma) c = .ok (a, d) →
        d.later.length < c.later.length) :
    Tracks s input (Parser.block b item) s :=
  here fun _ => mark_opening.bind fun _ _ => itemsFrom each moves []

/-- A comma behind a slot is taken, and so fewer tokens are left. -/
theorem slotsFrom {opened : Span} {item : Parser α}
    (each : ∀ input, Tracks (.round :: s) input item (.round :: s)) :
    Tracks (.round :: s) input (Parser.slotsFrom opened item) s := by
  rintro c rfl closed
  induction hLength : c.later.length using Nat.strongRecOn generalizing c with
  | _ n ih =>
      rw [Parser.slotsFrom]
      refine step (each _) closed fun a next _ hLeaves hClosed => ?_
      split
      · next hComma =>
        have hInside : next.kind ≠ .endOfInput := by simp [hComma]
        have hTokens := tokens_eq_cons hClosed hInside
        have hLess : next.advance.later.length < c.later.length := by
          have hLe := hLeaves.length_le
          rw [hTokens] at hLe
          simp only [Cursor.tokens, List.length_cons] at hLe
          omega
        have hPlain : next.current.kind.IsPlain := by
          have hKind : next.current.kind = .mark .comma := hComma
          simp [Token.Kind.IsPlain, hKind]
        rw [if_pos hLess, hTokens]
        have hOthers := ih _ (hLength ▸ hLess) next.advance (closed_advance hClosed hInside) rfl
        exact .cons (hOthers.behind (.cons hInside (.refl _)) (Token.openBehind?_plain hPlain))
      · have hFits : Fits (.round :: s) next.tokens (.round :: s)
            (Parser.atClosing .round opened next) := fits_atClosing hClosed
        rcases atClosing_cases .round opened next with
          ⟨hKind, hRun⟩ | ⟨b', -, -, hRun⟩ | ⟨-, hRun⟩ | ⟨-, -, hRun⟩
        · rw [hRun]
          exact advance_closing (f := fun _ => Pure.pure [a]) hKind pure next rfl hClosed
        · rw [hRun] at hFits ⊢
          exact hFits
        · rw [hRun] at hFits ⊢
          exact hFits
        · rw [hRun]
          exact unexpected next rfl hClosed

theorem tuple {item : Parser α} (each : ∀ input, Tracks (.round :: s) input item (.round :: s)) :
    Tracks s input (Parser.tuple item) s :=
  here fun _ => mark_opening.bind fun _ _ => slotsFrom each

theorem startingWith {m : Mark} {item : Parser α} (each : ∀ input, Tracks s input item s) :
    Tracks s input (Parser.startingWith m item) s := by
  rintro c rfl closed
  induction hLength : c.later.length using Nat.strongRecOn generalizing c with
  | _ n ih =>
      rw [Parser.startingWith]
      split
      · refine step (each _) closed fun a next _ _ hClosed => ?_
        split
        · next hLess => exact .cons (ih _ (hLength ▸ hLess) next hClosed rfl)
        · exact ⟨.refl _, rfl⟩
      · exact ⟨.refl _, rfl⟩

end Tracks

end Parser

end TypedConfig
