import TypedConfig.Proofs.Brackets.Tracking
import TypedConfig.Proofs.Truncation
/-!
A reading of tokens that go on beside a reading of the same tokens cut off. As long as the second
one has not come to the cut, it does what the first one does. At the cut it either stops, or it has
read something that the first one goes on with, such as the name of an alternative without what the
alternative carries.
-/
namespace TypedConfig

open TypedConfig.Parser TypedConfig.Token

/-- Tokens that are cut off inside of a block: those in front of the cut, the next one and the later
ones, which are missing, and the end of input that stands in their place. -/
structure Cut where
  file : String
  used : List Token
  next : Token
  later : List Token
  eof : Token
  ends : eof.kind = .endOfInput
  isOpen : ¬ Balanced used

namespace Cut

variable (cut : Cut)

/-- How the reading of the tokens that are cut off may stop: the innermost block is reported as
unclosed at the end of input if it could end at the cut, and no bracket is reported otherwise. -/
def Verdict (d : Diagnostic) : Prop :=
  (Pauses cut.used cut.next ∧ ∃ b o, Innermost cut.used b o ∧
    d = ⟨.grammatical (.unclosed b (o.span cut.file)), cut.eof.span cut.file⟩) ∨
  (¬ Pauses cut.used cut.next ∧ ¬ d.IsUnbalanced)

/-- Two cursors with the same tokens in front of the cut. -/
structure Stands (front : List Token) (c c' : Cursor) : Prop where
  file : c.file = cut.file
  file_eq : c'.file = cut.file
  tokens : c.tokens = front ++ cut.next :: cut.later
  tokens_eq : c'.tokens = front ++ [cut.eof]

/-- A cursor at the end of input behind the cut. -/
structure AtEnd (c : Cursor) : Prop where
  file : c.file = cut.file
  tokens : c.tokens = [cut.eof]

variable {α β : Type}

/-- The outcome of reading the tokens `front` in front of the cut, where the reading without the cut
gives `a` and goes on at `d`. -/
inductive Cutoff (front : List Token) (Q : List Token → Prop) (S : Prop) (a : α) (d : Cursor) :
    Except Diagnostic (α × Cursor) → Prop where
  /-- The cut lies further behind, and the same is read. -/
  | passed {moved others : List Token} {d' : Cursor} (split : front = moved ++ others)
      (stands : cut.Stands others d d') (read : Q moved) : Cutoff front Q S a d (.ok (a, d'))
  /-- Something is read up to the cut. -/
  | short {a' : α} {d' : Cursor} (atEnd : cut.AtEnd d') (ended : S) :
      Cutoff front Q S a d (.ok (a', d'))
  | stopped {e : Diagnostic} (verdict : cut.Verdict e) : Cutoff front Q S a d (.error e)

/-- Two parsers beside each other, the second of which reads the tokens that are cut off. It stands
behind the tokens `behind` and has the tokens `front` in front of the cut. -/
def Reads (behind front : List Token) (p q : Parser α) (Q : List Token → Prop) (S : Prop) : Prop :=
  cut.used = behind ++ front → ∀ c c', cut.Stands front c c' → ∀ a d, p c = .ok (a, d) →
    cut.Cutoff front Q S a d (q c')

/-- What is done at the end of input. -/
def Ends (S : Prop) (q : Parser α) : Prop :=
  ∀ c, cut.AtEnd c →
    (∃ a d, q c = .ok (a, d) ∧ cut.AtEnd d ∧ S) ∨ ∃ e, q c = .error e ∧ cut.Verdict e

variable {cut} {behind front moved : List Token} {t : Token} {Q Q' : List Token → Prop}
  {S S' : Prop}

theorem AtEnd.kind {c : Cursor} (atEnd : cut.AtEnd c) : c.kind = .endOfInput :=
  (kind_eq_of_tokens atEnd.tokens).trans cut.ends

theorem AtEnd.span {c : Cursor} (atEnd : cut.AtEnd c) : c.span = cut.eof.span cut.file := by
  have hCurrent : c.current = cut.eof := (List.cons.inj atEnd.tokens).1
  rw [Cursor.span, hCurrent, atEnd.file]

namespace Stands

variable {c c' : Cursor}

theorem atEnd (stands : cut.Stands [] c c') : cut.AtEnd c' := ⟨stands.file_eq, stands.tokens_eq⟩

theorem kind_next (stands : cut.Stands [] c c') : c.kind = cut.next.kind :=
  kind_eq_of_tokens stands.tokens

theorem kind (stands : cut.Stands (t :: front) c c') : c.kind = t.kind :=
  kind_eq_of_tokens stands.tokens

theorem kind_eq (stands : cut.Stands (t :: front) c c') : c'.kind = t.kind :=
  kind_eq_of_tokens stands.tokens_eq

theorem span (stands : cut.Stands (t :: front) c c') : c.span = t.span cut.file := by
  have hCurrent : c.current = t := (List.cons.inj stands.tokens).1
  rw [Cursor.span, hCurrent, stands.file]

theorem span_eq (stands : cut.Stands (t :: front) c c') : c'.span = t.span cut.file := by
  have hCurrent : c'.current = t := (List.cons.inj stands.tokens_eq).1
  rw [Cursor.span, hCurrent, stands.file_eq]

/-- Taking a token moves both cursors. -/
theorem advance (stands : cut.Stands (t :: front) c c') :
    cut.Stands front c.advance c'.advance := by
  have hTokens : ∀ {e : Cursor} {x : Token} {xs : List Token}, e.tokens = t :: (front ++ x :: xs) →
      e.advance.tokens = front ++ x :: xs := by
    intro e x xs heq
    obtain ⟨file, u, later⟩ := e
    obtain ⟨-, rfl⟩ := List.cons.inj heq
    cases front <;> rfl
  exact ⟨(file_advance c).trans stands.file, (file_advance c').trans stands.file_eq,
    hTokens stands.tokens, hTokens stands.tokens_eq⟩

/-- The numbers of tokens that are left differ by as much in both readings. -/
theorem length_eq (stands : cut.Stands front c c') :
    c.later.length = front.length + cut.later.length ∧ c'.later.length = front.length := by
  have hLeft := congrArg List.length stands.tokens
  have hRight := congrArg List.length stands.tokens_eq
  simp only [Cursor.tokens, List.length_cons, List.length_append, List.length_nil] at hLeft hRight
  omega

end Stands

/-- What is read behind some tokens. -/
theorem Cutoff.prepend {others : List Token} {a : α} {d : Cursor}
    {run : Except Diagnostic (α × Cursor)} (split : front = moved ++ others)
    (cutoff : cut.Cutoff others (fun more => Q (moved ++ more)) S a d run) :
    cut.Cutoff front Q S a d run := by
  cases cutoff with
  | passed hSplit stands read =>
      exact .passed (by rw [split, hSplit, List.append_assoc]) stands read
  | short atEnd ended => exact .short atEnd ended
  | stopped verdict => exact .stopped verdict

namespace Reads

theorem imp {p q : Parser α} (reads : cut.Reads behind front p q Q S)
    (weaker : ∀ moved, Q moved → Q' moved) (ended : S → S') :
    cut.Reads behind front p q Q' S' := by
  intro hUsed c c' stands a d hRun
  have hReads := reads hUsed c c' stands a d hRun
  generalize q c' = run at hReads
  cases hReads with
  | passed split stands read => exact .passed split stands (weaker _ read)
  | short atEnd hEnded => exact .short atEnd (ended hEnded)
  | stopped verdict => exact .stopped verdict

/-- What is known of the tokens in front of the cut may be used. -/
theorem of_used {p q : Parser α}
    (reads : cut.used = behind ++ front → cut.Reads behind front p q Q S) :
    cut.Reads behind front p q Q S :=
  fun hUsed => reads hUsed hUsed

theorem bind {p q : Parser α} {f g : α → Parser β} (first : cut.Reads behind front p q Q S)
    (second : ∀ a moved others, front = moved ++ others → Q moved →
      cut.Reads (behind ++ moved) others (f a) (g a) (fun more => Q' (moved ++ more)) S')
    (ending : S → ∀ a a' d, (∃ b e, f a d = .ok (b, e)) → cut.Ends S' (g a')) :
    cut.Reads behind front (p >>= f) (q >>= g) Q' S' := by
  intro hUsed c c' stands b e hRun
  obtain ⟨a, d, hp, hf⟩ := bind_eq_ok.1 hRun
  have hFirst := first hUsed c c' stands a d hp
  rw [bind_apply]
  cases hq : q c' with
  | error _ =>
      rw [hq] at hFirst
      cases hFirst with
      | stopped verdict => exact .stopped verdict
  | ok read =>
      rw [hq] at hFirst
      cases hFirst with
      | passed split stands' read =>
          have hRest := second a _ _ split read (by rw [hUsed, split, List.append_assoc])
            _ _ stands' b e hf
          exact hRest.prepend split
      | @short a' d' atEnd ended =>
          rcases ending ended a a' d ⟨b, e, hf⟩ d' atEnd with
            ⟨b', e', hEnd, hAtEnd, hEnded⟩ | ⟨e', hEnd, verdict⟩
          · simp only [hEnd]
            exact .short hAtEnd hEnded
          · simp only [hEnd]
            exact .stopped verdict

theorem pure {a : α} (read : Q []) :
    cut.Reads behind front (Pure.pure a : Parser α) (Pure.pure a) Q S := by
  intro _ c c' stands b d hRun
  obtain ⟨rfl, rfl⟩ := pure_eq_ok.1 hRun
  exact .passed rfl stands read

theorem pure_ends {a : α} (ended : S) : cut.Ends S (Pure.pure a : Parser α) :=
  fun c atEnd => .inl ⟨a, c, rfl, atEnd, ended⟩

/-- What is made of what was read. -/
theorem map {p q : Parser α} {h : α → β} (reads : cut.Reads behind front p q Q S) :
    cut.Reads behind front (p >>= fun a => Pure.pure (h a)) (q >>= fun a => Pure.pure (h a)) Q S :=
  reads.bind (fun _ _ _ _ read => pure (by simpa using read)) fun ended _ _ _ _ => pure_ends ended

/-- A result that is refused on a condition is not refused where the reading without the cut goes
on. -/
theorem refusing {p q : Parser α} {condition : Prop} [Decidable condition] {fault : SyntaxFault}
    {span span' : Span} {h : α → β} (reads : cut.Reads behind front p q Q S) :
    cut.Reads behind front
      (p >>= fun a => if condition then Parser.fail fault span else Pure.pure (h a))
      (q >>= fun a => if condition then Parser.fail fault span' else Pure.pure (h a)) Q S := by
  by_cases hCondition : condition
  · intro _ c c' _ b d hRun
    obtain ⟨a, e, -, hFail⟩ := bind_eq_ok.1 hRun
    simp [hCondition] at hFail
  · simp only [if_neg hCondition]
    exact reads.map

/-- Nothing is to be shown where the reading without the cut stops. -/
theorem of_stops {p q : Parser α} (stops : ∀ c a d, p c ≠ .ok (a, d)) :
    cut.Reads behind front p q Q S :=
  fun _ _ _ _ _ _ hRun => absurd hRun (stops _ _ _)

theorem of_unexpected {expected : Expectation} {q : Parser α} :
    cut.Reads behind front (Parser.unexpected expected) q Q S :=
  of_stops fun _ _ _ hRun => by simp at hRun

end Reads

/-- A parser that does not expect the end of input. -/
def Stops (q : Parser α) : Prop :=
  ∀ c : Cursor, c.kind = .endOfInput → ∃ e, q c = .error e ∧ ¬ e.IsUnbalanced

theorem stops_unexpected {expected : Expectation} :
    Stops (Parser.unexpected expected : Parser α) :=
  fun _ _ => ⟨_, rfl, by simp [Diagnostic.IsUnbalanced, Cause.code, SyntaxFault.code]⟩

theorem stops_mark {m : Mark} : Stops (Parser.mark m) := by
  intro c hKind
  have hRun : Parser.mark m c = Parser.unexpected (.token (.mark m)) c := by
    have hBind : Parser.mark m c = (if c.kind = .mark m then Parser.advance
      else Parser.unexpected (.token (.mark m)) : Parser Unit) c := rfl
    rw [hBind, hKind, if_neg (by simp)]
  rw [hRun]
  exact stops_unexpected c hKind

theorem Ends.of_stops {q : Parser α} (stuck : ¬ Pauses cut.used cut.next) (stops : Stops q) :
    cut.Ends S q := by
  intro c atEnd
  obtain ⟨e, hRun, hCode⟩ := stops c atEnd.kind
  exact .inr ⟨e, hRun, .inr ⟨stuck, hCode⟩⟩

namespace Reads

/-- Something else than the end of input has to follow at the cut. -/
theorem of_stuck {p q : Parser α} (stops : Stops q)
    (stuck : cut.used = behind → ¬ Pauses cut.used cut.next) : cut.Reads behind [] p q Q S := by
  intro hUsed c c' stands a d _
  obtain ⟨e, hRun, hCode⟩ := stops c' stands.atEnd.kind
  rw [hRun]
  exact .stopped (.inr ⟨stuck (by simpa using hUsed), hCode⟩)

/-- The end of input that follows the token at hand does not fit. -/
theorem of_refused {p q : Parser α} (refuses : ∀ c, ∃ e, q c = .error e ∧ ¬ e.IsUnbalanced)
    (stuck : cut.used = behind ++ front → ¬ Pauses cut.used cut.next) :
    cut.Reads behind front p q Q S := by
  intro hUsed c c' _ a d _
  obtain ⟨e, hRun, hCode⟩ := refuses c'
  rw [hRun]
  exact .stopped (.inr ⟨stuck hUsed, hCode⟩)

/-- A block is open at the cut. -/
theorem of_balanced {p q : Parser α} (balanced : Balanced behind) :
    cut.Reads behind [] p q Q S :=
  fun hUsed => absurd (by simpa [hUsed] using balanced) cut.isOpen

theorem here {f g : Span → Parser β}
    (next : cut.Reads behind (t :: front) (f (t.span cut.file)) (g (t.span cut.file)) Q S) :
    cut.Reads behind (t :: front) (Parser.here >>= f) (Parser.here >>= g) Q S := by
  intro hUsed c c' stands b d hRun
  have hLeft : (Parser.here >>= f) c = f (t.span cut.file) c := stands.span ▸ rfl
  have hRight : (Parser.here >>= g) c' = g (t.span cut.file) c' := stands.span_eq ▸ rfl
  rw [hRight]
  exact next hUsed c c' stands b d (hLeft ▸ hRun)

theorem kind {f g : Token.Kind → Parser β}
    (next : cut.Reads behind (t :: front) (f t.kind) (g t.kind) Q S) :
    cut.Reads behind (t :: front) (Parser.kind >>= f) (Parser.kind >>= g) Q S := by
  intro hUsed c c' stands b d hRun
  have hLeft : (Parser.kind >>= f) c = f t.kind c := stands.kind ▸ rfl
  have hRight : (Parser.kind >>= g) c' = g t.kind c' := stands.kind_eq ▸ rfl
  rw [hRight]
  exact next hUsed c c' stands b d (hLeft ▸ hRun)

/-- At the cut one reading sees the next token, and the other one the end of input. -/
theorem kind_cut {f g : Token.Kind → Parser β}
    (next : cut.Reads behind [] (f cut.next.kind) (g .endOfInput) Q S) :
    cut.Reads behind [] (Parser.kind >>= f) (Parser.kind >>= g) Q S := by
  intro hUsed c c' stands b d hRun
  have hLeft : (Parser.kind >>= f) c = f cut.next.kind c := stands.kind_next ▸ rfl
  have hRight : (Parser.kind >>= g) c' = g .endOfInput c' := stands.atEnd.kind ▸ rfl
  rw [hRight]
  exact next hUsed c c' stands b d (hLeft ▸ hRun)

theorem nextKind {u : Token} {f g : Token.Kind → Parser β}
    (next : cut.Reads behind (t :: u :: front) (f u.kind) (g u.kind) Q S) :
    cut.Reads behind (t :: u :: front) (Parser.nextKind >>= f) (Parser.nextKind >>= g) Q S := by
  intro hUsed c c' stands b d hRun
  have hNext : c.nextKind = u.kind := by
    rw [Cursor.nextKind, (List.cons.inj stands.tokens).2]
    rfl
  have hNext' : c'.nextKind = u.kind := by
    rw [Cursor.nextKind, (List.cons.inj stands.tokens_eq).2]
    rfl
  have hLeft : (Parser.nextKind >>= f) c = f u.kind c := hNext ▸ rfl
  have hRight : (Parser.nextKind >>= g) c' = g u.kind c' := hNext' ▸ rfl
  rw [hRight]
  exact next hUsed c c' stands b d (hLeft ▸ hRun)

theorem nextKind_cut {f g : Token.Kind → Parser β}
    (next : cut.Reads behind [t] (f cut.next.kind) (g .endOfInput) Q S) :
    cut.Reads behind [t] (Parser.nextKind >>= f) (Parser.nextKind >>= g) Q S := by
  intro hUsed c c' stands b d hRun
  have hNext : c.nextKind = cut.next.kind := by
    rw [Cursor.nextKind, (List.cons.inj stands.tokens).2]
    rfl
  have hNext' : c'.nextKind = .endOfInput := by
    rw [Cursor.nextKind, (List.cons.inj stands.tokens_eq).2]
    exact cut.ends
  have hLeft : (Parser.nextKind >>= f) c = f cut.next.kind c := hNext ▸ rfl
  have hRight : (Parser.nextKind >>= g) c' = g .endOfInput c' := hNext' ▸ rfl
  rw [hRight]
  exact next hUsed c c' stands b d (hLeft ▸ hRun)

theorem advance {f g : Unit → Parser β}
    (next : cut.Reads (behind ++ [t]) front (f ()) (g ()) (fun more => Q (t :: more)) S) :
    cut.Reads behind (t :: front) (Parser.advance >>= f) (Parser.advance >>= g) Q S := by
  intro hUsed c c' stands b d hRun
  have hRest := next (by simpa using hUsed) _ _ stands.advance b d hRun
  exact Cutoff.prepend (List.singleton_append).symm hRest

/-- A mark, behind which tokens the cut may not be passed. -/
theorem mark {m : Mark}
    (stuck : cut.used = behind → cut.next.kind = .mark m → ¬ Pauses cut.used cut.next) :
    cut.Reads behind front (Parser.mark m) (Parser.mark m)
      (fun moved => ∃ t, moved = [t] ∧ t.kind = .mark m) S := by
  cases front with
  | nil =>
      refine kind_cut ?_
      by_cases hNext : cut.next.kind = .mark m
      · rw [if_neg (by simp : Token.Kind.endOfInput ≠ .mark m)]
        exact of_stuck stops_unexpected fun hUsed => stuck hUsed hNext
      · rw [if_neg hNext]
        exact of_unexpected
  | cons t front =>
      refine kind ?_
      by_cases hKind : t.kind = .mark m
      · rw [if_pos hKind]
        exact advance (f := Pure.pure) (g := Pure.pure) (pure ⟨t, rfl, hKind⟩)
      · rw [if_neg hKind]
        exact of_unexpected

theorem word :
    cut.Reads behind (t :: front) Parser.word Parser.word
      (fun moved => moved = [t] ∧ ∃ text, t.kind = .word text) S := by
  refine kind ?_
  cases hKind : t.kind with
  | word text => exact advance (pure ⟨rfl, text, rfl⟩)
  | _ => exact of_unexpected

theorem optionalMark {m : Mark} :
    cut.Reads behind front (Parser.optionalMark m) (Parser.optionalMark m)
      (fun moved => moved = [] ∨ ∃ t, moved = [t] ∧ t.kind = .mark m)
      (front = [] ∧ cut.next.kind = .mark m) := by
  cases front with
  | nil =>
      refine kind_cut ?_
      rw [if_neg (by simp : Token.Kind.endOfInput ≠ .mark m)]
      by_cases hNext : cut.next.kind = .mark m
      · intro _ c c' stands a d _
        exact .short stands.atEnd ⟨rfl, hNext⟩
      · rw [if_neg hNext]
        exact pure (.inl rfl)
  | cons t front =>
      refine kind ?_
      by_cases hKind : t.kind = .mark m
      · rw [if_pos hKind]
        exact advance (pure (.inr ⟨t, rfl, hKind⟩))
      · rw [if_neg hKind]
        exact pure (.inl rfl)

end Reads

end Cut

end TypedConfig
