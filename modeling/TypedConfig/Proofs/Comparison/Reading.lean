import TypedConfig.Proofs.Comparison.Verdicts
import TypedConfig.Document.Parser
/-!
Two parsers side by side. Where the kinds of the tokens at hand are the same, apart from the paths
that directives include, what is read is the same but for places and these paths, or both readings
stop for reasons of the same code. A directive in its place is read by the parser of directives, and
no other parser moves past the mark that one begins with.
-/
namespace TypedConfig

variable {Q : String → String → Prop}

/-! ### Runs that end alike -/

section

variable {α β γ δ : Type} {R : α → β → Prop} {run : Except Diagnostic α}
  {other : Except Diagnostic β}

theorem EndsAlike.imp {S : α → β → Prop} (ends : EndsAlike R run other)
    (weaker : ∀ a b, R a b → S a b) : EndsAlike S run other := by
  cases ends with
  | ok related => exact .ok (weaker _ _ related)
  | error code => exact .error code

/-- What goes on after two runs that end alike. -/
theorem EndsAlike.bind {S : γ → δ → Prop} {next : α → Except Diagnostic γ}
    {next' : β → Except Diagnostic δ} (ends : EndsAlike R run other)
    (others : ∀ a b, R a b → EndsAlike S (next a) (next' b)) :
    EndsAlike S (run >>= next) (other >>= next') := by
  cases ends with
  | ok related => exact others _ _ related
  | error code => exact .error code

end

/-! ### Tokens -/

namespace Token.SameKinds

variable {k l : Token.Kind} {ks ls : List Token.Kind}

theorem length_eq (same : SameKinds Q ks ls) : ks.length = ls.length := by
  induction same with
  | nil => rfl
  | kind _ ih => rw [List.length_cons, List.length_cons, ih]
  | directive _ _ ih => simpa using ih

theorem head_eq (same : SameKinds Q (k :: ks) (l :: ls)) : k = l := by
  cases same <;> rfl

theorem tail (same : SameKinds Q (k :: ks) (l :: ls)) (noHash : k ≠ .mark .hash) :
    SameKinds Q ks ls := by
  cases same with
  | kind others => exact others
  | directive => exact absurd rfl noHash

theorem head?_eq (same : SameKinds Q (k :: ks) (l :: ls)) : ks.head? = ls.head? := by
  cases same with
  | kind others =>
      cases others <;> rfl
  | directive => rfl

theorem refl (ks : List Token.Kind) : SameKinds Q ks ks := by
  induction ks with
  | nil => exact .nil
  | cons k ks ih => exact .kind ih

end Token.SameKinds

/-- The kinds of the tokens from the one at hand on. -/
def Cursor.kinds (c : Cursor) : List Token.Kind := c.kind :: c.later.map Token.kind

/-- The tokens from the one at hand on have the same kinds but for the paths in directives. -/
def Cursor.Alike (Q : String → String → Prop) (c d : Cursor) : Prop :=
  Token.SameKinds Q c.kinds d.kinds

theorem Cursor.kind_advance (c : Cursor) : c.advance.kind = c.nextKind := by
  obtain ⟨file, t, later⟩ := c
  cases later <;> rfl

namespace Cursor.Alike

variable {c d : Cursor}

theorem kind (alike : c.Alike Q d) : c.kind = d.kind := Token.SameKinds.head_eq alike

theorem later_length (alike : c.Alike Q d) : c.later.length = d.later.length := by
  simpa [kinds] using Token.SameKinds.length_eq alike

theorem nextKind (alike : c.Alike Q d) : c.nextKind = d.nextKind := by
  have hNext := Token.SameKinds.head?_eq alike
  have hKind := alike.kind
  obtain ⟨file, t, later⟩ := c
  obtain ⟨file', t', later'⟩ := d
  cases later with
  | nil =>
      cases later' with
      | nil => exact hKind
      | cons => cases hNext
  | cons u later =>
      cases later' with
      | nil => cases hNext
      | cons u' later' => exact Option.some.inj hNext

/-- Moving on where the tokens behind the ones at hand are alike. -/
theorem of_later (alike : c.Alike Q d)
    (others : Token.SameKinds Q (c.later.map Token.kind) (d.later.map Token.kind)) :
    c.advance.Alike Q d.advance := by
  have hLength := alike.later_length
  obtain ⟨file, t, later⟩ := c
  obtain ⟨file', t', later'⟩ := d
  cases later with
  | nil =>
      cases later' with
      | nil => exact alike
      | cons => cases hLength
  | cons u later =>
      cases later' with
      | nil => cases hLength
      | cons u' later' => exact others

theorem advance (alike : c.Alike Q d) (noHash : c.kind ≠ .mark .hash) :
    c.advance.Alike Q d.advance :=
  alike.of_later (Token.SameKinds.tail alike noHash)

end Cursor.Alike

/-! ### Parsers -/

namespace Parser

variable {α β γ δ : Type} {K : Cursor → Prop} {R : α → β → Prop} {S : γ → δ → Prop}

/-- Two readings end alike, and those that go on stand at tokens that are alike. -/
def EndAlike (Q : String → String → Prop) (R : α → β → Prop) :
    Except Diagnostic (α × Cursor) → Except Diagnostic (β × Cursor) → Prop :=
  EndsAlike fun read other => R read.1 other.1 ∧ read.2.Alike Q other.2

/-- Two parsers do alike at tokens that are alike, if more is known of the first of them. -/
def DoAlike (Q : String → String → Prop) (K : Cursor → Prop) (R : α → β → Prop) (p : Parser α)
    (q : Parser β) : Prop :=
  ∀ c d : Cursor, c.Alike Q d → K c → EndAlike Q R (p c) (q d)

/-- Nothing is known of the tokens at hand. -/
abbrev Anywhere : Cursor → Prop := fun _ => True

/-- What is done with what was read, if something was. -/
theorem EndAlike.step {read : Except Diagnostic (α × Cursor)}
    {other : Except Diagnostic (β × Cursor)} {next : α → Cursor → Except Diagnostic (γ × Cursor)}
    {next' : β → Cursor → Except Diagnostic (δ × Cursor)} :
    EndAlike Q R read other →
      (∀ a b c d, R a b → c.Alike Q d → EndAlike Q S (next a c) (next' b d)) →
      EndAlike Q S
        (match read with
          | .error d => .error d
          | .ok (a, rest) => next a rest)
        (match other with
          | .error d => .error d
          | .ok (b, rest) => next' b rest) := by
  intro ends others
  cases ends with
  | error code => exact .error code
  | ok related => exact others _ _ _ _ related.1 related.2

/-- What is put in front of the list that was read behind it. -/
theorem EndAlike.cons {a : α} {b : β} {others : Except Diagnostic (List α × Cursor)}
    {others' : Except Diagnostic (List β × Cursor)} (first : R a b) :
    EndAlike Q (List.Forall₂ R) others others' →
      EndAlike Q (List.Forall₂ R)
        (match others with
          | .error d => .error d
          | .ok (as, last) => .ok (a :: as, last))
        (match others' with
          | .error d => .error d
          | .ok (bs, last) => .ok (b :: bs, last)) := by
  intro ends
  cases ends with
  | error code => exact .error code
  | ok related => exact .ok ⟨.cons first related.1, related.2⟩

namespace DoAlike

theorem bind {p : Parser α} {q : Parser β} {f : α → Parser γ} {g : β → Parser δ}
    (first : DoAlike Q K R p q) (second : ∀ a b, R a b → DoAlike Q Anywhere S (f a) (g b)) :
    DoAlike Q K S (p >>= f) (q >>= g) := fun c d alike known =>
  (first c d alike known).bind fun _ _ related => second _ _ related.1 _ _ related.2 trivial

theorem pure {a : α} {b : β} (related : R a b) :
    DoAlike Q K R (Pure.pure a : Parser α) (Pure.pure b : Parser β) :=
  fun _ _ alike _ => .ok ⟨related, alike⟩

theorem fail {fault fault' : SyntaxFault} {span span' : Span} (code : fault.code = fault'.code) :
    DoAlike Q K R (Parser.fail fault span : Parser α) (Parser.fail fault' span' : Parser β) :=
  fun _ _ _ _ => .error code

theorem here {f : Span → Parser γ} {g : Span → Parser δ}
    (next : ∀ span span', DoAlike Q K S (f span) (g span')) :
    DoAlike Q K S (Parser.here >>= f) (Parser.here >>= g) :=
  fun c d alike known => next c.span d.span c d alike known

theorem kind {f : Token.Kind → Parser γ} {g : Token.Kind → Parser δ}
    (next : ∀ k, DoAlike Q (fun c => K c ∧ c.kind = k) S (f k) (g k)) :
    DoAlike Q K S (Parser.kind >>= f) (Parser.kind >>= g) := by
  intro c d alike known
  have hNext := next c.kind c d alike ⟨known, rfl⟩
  have hRun : (Parser.kind >>= g) d = g d.kind d := rfl
  rw [hRun, ← alike.kind]
  exact hNext

theorem nextKind {f : Token.Kind → Parser γ} {g : Token.Kind → Parser δ}
    (next : ∀ k, DoAlike Q (fun c => K c ∧ c.nextKind = k) S (f k) (g k)) :
    DoAlike Q K S (Parser.nextKind >>= f) (Parser.nextKind >>= g) := by
  intro c d alike known
  have hNext := next c.nextKind c d alike ⟨known, rfl⟩
  have hRun : (Parser.nextKind >>= g) d = g d.nextKind d := rfl
  rw [hRun, ← alike.nextKind]
  exact hNext

/-- Moving on, unless a directive may begin here. -/
theorem advance {f : Unit → Parser γ} {g : Unit → Parser δ}
    (noHash : ∀ c, K c → c.kind ≠ .mark .hash) (next : DoAlike Q Anywhere S (f ()) (g ())) :
    DoAlike Q K S (Parser.advance >>= f) (Parser.advance >>= g) :=
  fun c d alike known => next c.advance d.advance (alike.advance (noHash c known)) trivial

theorem unexpected {expected expected' : Expectation} :
    DoAlike Q K R (Parser.unexpected expected : Parser α)
      (Parser.unexpected expected' : Parser β) :=
  fun _ _ _ _ => .error rfl

theorem ite {condition condition' : Prop} [Decidable condition] [Decidable condition']
    {p p' : Parser α} {q q' : Parser β} (same : condition ↔ condition')
    (yes : DoAlike Q K R p q) (no : DoAlike Q K R p' q') :
    DoAlike Q K R (if condition then p else p') (if condition' then q else q') := by
  by_cases h : condition
  · rw [if_pos h, if_pos (same.1 h)]
    exact yes
  · rw [if_neg h, if_neg (mt same.2 h)]
    exact no

theorem mark {m : Mark} (noHash : m ≠ .hash) :
    DoAlike Q K (fun _ _ => True) (Parser.mark m) (Parser.mark m) := by
  refine kind fun k => ?_
  by_cases h : k = .mark m
  · rw [if_pos h]
    refine fun c d alike known => .ok ⟨trivial, alike.advance ?_⟩
    rw [known.2, h]
    simpa using noHash
  · rw [if_neg h]
    exact unexpected

theorem word : DoAlike Q K Eq Parser.word Parser.word := by
  refine kind fun k => ?_
  cases k with
  | word text => exact advance (fun c known => by simp [known.2]) (pure rfl)
  | _ => exact unexpected

theorem quoted : DoAlike Q K Eq Parser.quoted Parser.quoted := by
  refine kind fun k => ?_
  cases k with
  | quoted text => exact advance (fun c known => by simp [known.2]) (pure rfl)
  | _ => exact unexpected

theorem optionalMark {m : Mark} (noHash : m ≠ .hash) :
    DoAlike Q K Eq (Parser.optionalMark m) (Parser.optionalMark m) := by
  refine kind fun k => ?_
  by_cases h : k = .mark m
  · rw [if_pos h]
    exact advance (fun c known => by simpa [known.2, h] using noHash) (pure rfl)
  · rw [if_neg h]
    exact pure rfl

/-- Whether a block ends at a token of the given kind. -/
def endsAt (b : Bracket) (opened : Span) : Token.Kind → Parser Bool
  | .mark (.closing other) =>
    if other = b then Pure.pure true else Parser.here >>= Parser.fail (.wrongCloser other b opened)
  | .endOfInput => Parser.here >>= Parser.fail (.unclosed b opened)
  | _ => Pure.pure false

theorem atClosing_eq (b : Bracket) (opened : Span) (c : Cursor) :
    Parser.atClosing b opened c = endsAt b opened c.kind c := rfl

/-- A block is at its end in both, or in neither, or both are unbalanced. -/
theorem closes (b : Bracket) (opened opened' : Span) {c d : Cursor} (same : c.kind = d.kind) :
    (∃ closed, Parser.atClosing b opened c = .ok (closed, c) ∧
      Parser.atClosing b opened' d = .ok (closed, d) ∧
      (closed = true → c.kind ≠ .mark .hash)) ∨
    ∃ e e', Parser.atClosing b opened c = .error e ∧ Parser.atClosing b opened' d = .error e' ∧
      e.cause.code = e'.cause.code := by
  rw [atClosing_eq, atClosing_eq, ← same]
  cases c.kind with
  | mark m =>
      cases m with
      | closing other =>
          by_cases h : other = b
          · simp only [endsAt, if_pos h]
            exact .inl ⟨true, rfl, rfl, fun _ => by simp⟩
          · simp only [endsAt, if_neg h]
            exact .inr ⟨_, _, rfl, rfl, rfl⟩
      | _ => exact .inl ⟨false, rfl, rfl, by simp⟩
  | endOfInput => exact .inr ⟨_, _, rfl, rfl, rfl⟩
  | _ => exact .inl ⟨false, rfl, rfl, by simp⟩

theorem atClosing {b : Bracket} {opened opened' : Span} {f : Bool → Parser γ} {g : Bool → Parser δ}
    (next : ∀ closed, DoAlike Q (fun c => closed = true → c.kind ≠ .mark .hash) S (f closed)
      (g closed)) :
    DoAlike Q K S (Parser.atClosing b opened >>= f) (Parser.atClosing b opened' >>= g) := by
  intro c d alike _
  simp only [Bind.bind, StateT.bind, Except.bind]
  rcases closes b opened opened' alike.kind with
    ⟨closed, hLeft, hRight, hKind⟩ | ⟨e, e', hLeft, hRight, hCode⟩
  · rw [hLeft, hRight]
    exact next closed c d alike hKind
  · rw [hLeft, hRight]
    exact .error hCode

/-! ### Lists -/

theorem itemsFrom {b : Bracket} {opened opened' : Span} {item : List α → Parser α}
    {item' : List β → Parser β}
    (each : ∀ before before', List.Forall₂ R before before' →
      DoAlike Q Anywhere R (item before) (item' before'))
    {before : List α} {before' : List β} (passed : List.Forall₂ R before before') :
    DoAlike Q K (List.Forall₂ R) (Parser.itemsFrom b opened item before)
      (Parser.itemsFrom b opened' item' before') := by
  intro c d alike known
  clear known
  induction hLength : c.later.length using Nat.strongRecOn generalizing c d before before' with
  | _ n ih =>
      have hItem : DoAlike Q Anywhere R (item before <* Parser.optionalMark .comma)
          (item' before' <* Parser.optionalMark .comma) :=
        (each _ _ passed).bind fun a b' related =>
          (optionalMark (by decide)).bind fun _ _ _ => pure related
      have hRun := hItem c d alike trivial
      rw [Parser.itemsFrom, Parser.itemsFrom]
      rcases closes b opened opened' alike.kind with
        ⟨closed, hLeft, hRight, hKind⟩ | ⟨e, e', hLeft, hRight, hCode⟩
      · cases closed with
        | true =>
            simp only [hLeft, hRight]
            exact .ok ⟨.nil, alike.advance (hKind rfl)⟩
        | false =>
            simp only [hLeft, hRight]
            refine hRun.step fun a a' next next' related hNext => ?_
            rw [← hNext.later_length, ← alike.later_length]
            split
            · next hLess =>
              exact .cons related (ih _ (hLength ▸ hLess) (.cons related passed) _ _ hNext rfl)
            · exact .error rfl
      · simp only [hLeft, hRight]
        exact .error hCode

theorem block {b : Bracket} {item : List α → Parser α} {item' : List β → Parser β}
    (each : ∀ before before', List.Forall₂ R before before' →
      DoAlike Q Anywhere R (item before) (item' before')) :
    DoAlike Q K (List.Forall₂ R) (Parser.block b item) (Parser.block b item') :=
  here fun _ _ => (mark (by simp)).bind fun _ _ _ => itemsFrom each .nil

theorem slotsFrom {opened opened' : Span} {item : Parser α} {item' : Parser β}
    (each : DoAlike Q Anywhere R item item') :
    DoAlike Q K (List.Forall₂ R) (Parser.slotsFrom opened item)
      (Parser.slotsFrom opened' item') := by
  intro c d alike known
  clear known
  induction hLength : c.later.length using Nat.strongRecOn generalizing c d with
  | _ n ih =>
      rw [Parser.slotsFrom, Parser.slotsFrom]
      refine (each c d alike trivial).step fun a a' next next' related hNext => ?_
      rw [← hNext.kind]
      split
      · next hComma =>
        have hBehind : next.advance.Alike Q next'.advance := hNext.advance (by simp [hComma])
        rw [← hBehind.later_length, ← alike.later_length]
        split
        · next hLess => exact .cons related (ih _ (hLength ▸ hLess) _ _ hBehind rfl)
        · exact .error rfl
      · rcases closes .round opened opened' hNext.kind with
          ⟨closed, hLeft, hRight, hKind⟩ | ⟨e, e', hLeft, hRight, hCode⟩
        · cases closed with
          | true =>
              simp only [hLeft, hRight]
              exact .ok ⟨.cons related .nil, hNext.advance (hKind rfl)⟩
          | false =>
              simp only [hLeft, hRight]
              exact .error rfl
        · simp only [hLeft, hRight]
          exact .error hCode

theorem tuple {item : Parser α} {item' : Parser β} (each : DoAlike Q Anywhere R item item') :
    DoAlike Q K (List.Forall₂ R) (Parser.tuple item) (Parser.tuple item') :=
  here fun _ _ => (mark (by simp)).bind fun _ _ _ => slotsFrom each

theorem startingWith {m : Mark} {item : Parser α} {item' : Parser β}
    (each : DoAlike Q Anywhere R item item') :
    DoAlike Q K (List.Forall₂ R) (Parser.startingWith m item) (Parser.startingWith m item') := by
  intro c d alike known
  clear known
  induction hLength : c.later.length using Nat.strongRecOn generalizing c d with
  | _ n ih =>
      rw [Parser.startingWith, Parser.startingWith, ← alike.kind]
      split
      · refine (each c d alike trivial).step fun a a' next next' related hNext => ?_
        rw [← hNext.later_length, ← alike.later_length]
        split
        · next hLess => exact .cons related (ih _ (hLength ▸ hLess) _ _ hNext rfl)
        · exact .ok ⟨.cons related .nil, hNext⟩
      · exact .ok ⟨.nil, alike⟩

end DoAlike

end Parser

end TypedConfig
