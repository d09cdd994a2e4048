import Mathlib.Tactic.Choose
import Mathlib.Tactic.Tauto
import TypedConfig.Cursor
import TypedConfig.Proofs.Grammar
/-!
What it means that a parser accepts exactly a production, and that this is kept when parsers are put
together. Parsers run on tokens whose last one, and no other, is the end of input; no construct
takes that one, so there is always a token to go on with.
-/
namespace TypedConfig

namespace Token

/-- The last token, and no other, is the end of input. -/
def Closed (tokens : List Token) : Prop :=
  ∃ body last, tokens = body ++ [last] ∧ last.kind = .endOfInput ∧
    ∀ t ∈ body, t.kind ≠ .endOfInput

/-- Taking tokens from the front, but never the end of input, leaves `rest` of `input`. -/
def Leaves (input rest : List Token) : Prop :=
  ∃ used, input = used ++ rest ∧ ∀ t ∈ used, t.kind ≠ .endOfInput

namespace Leaves

theorem refl (input : List Token) : Leaves input input := ⟨[], rfl, by simp⟩

theorem cons {t : Token} {input rest : List Token} (inside : t.kind ≠ .endOfInput)
    (leaves : Leaves input rest) : Leaves (t :: input) rest := by
  obtain ⟨used, rfl, hUsed⟩ := leaves
  exact ⟨t :: used, rfl, List.forall_mem_cons.2 ⟨inside, hUsed⟩⟩

theorem trans {input middle rest : List Token} (left : Leaves input middle)
    (right : Leaves middle rest) : Leaves input rest := by
  obtain ⟨used, rfl, hUsed⟩ := left
  obtain ⟨more, rfl, hMore⟩ := right
  refine ⟨used ++ more, by simp, fun t ht => ?_⟩
  rcases List.mem_append.1 ht with ht | ht
  · exact hUsed t ht
  · exact hMore t ht

theorem length_le {input rest : List Token} (leaves : Leaves input rest) :
    rest.length ≤ input.length := by
  obtain ⟨used, rfl, -⟩ := leaves
  simp

end Leaves

namespace Closed

theorem singleton {t : Token} (ends : t.kind = .endOfInput) : Closed [t] :=
  ⟨[], t, rfl, ends, by simp⟩

theorem cons {t : Token} {tokens : List Token} (inside : t.kind ≠ .endOfInput)
    (closed : Closed tokens) : Closed (t :: tokens) := by
  obtain ⟨body, last, rfl, hLast, hBody⟩ := closed
  exact ⟨t :: body, last, rfl, hLast, List.forall_mem_cons.2 ⟨inside, hBody⟩⟩

theorem ne_nil {tokens : List Token} (closed : Closed tokens) : tokens ≠ [] := by
  obtain ⟨body, last, rfl, -⟩ := closed
  simp

theorem of_leaves {input rest : List Token} (closed : Closed input) (leaves : Leaves input rest) :
    Closed rest := by
  obtain ⟨body, last, heq, hLast, hBody⟩ := closed
  obtain ⟨used, hInput, hUsed⟩ := leaves
  rw [hInput] at heq
  rcases List.append_eq_append_iff.1 heq with ⟨before, rfl, hRest⟩ | ⟨before, hBefore, hRest⟩
  · exact ⟨before, last, hRest, hLast, fun t ht => hBody t (by simp [ht])⟩
  · cases before with
    | nil => exact ⟨[], last, by simpa using hRest.symm, hLast, by simp⟩
    | cons t before =>
        have hHead : last = t := (List.cons.inj hRest).1
        exact absurd (hHead ▸ hLast) (hUsed t (by simp [hBefore]))

theorem of_cons {t : Token} {rest : List Token} (closed : Closed (t :: rest))
    (inside : t.kind ≠ .endOfInput) : Closed rest :=
  closed.of_leaves ((Leaves.refl rest).cons inside)

/-- Nothing stands behind the end of input. -/
theorem later_eq_nil {t : Token} {rest : List Token} (closed : Closed (t :: rest))
    (ends : t.kind = .endOfInput) : rest = [] := by
  obtain ⟨body, last, heq, -, hBody⟩ := closed
  cases body with
  | nil => exact (List.cons.inj heq).2
  | cons u body =>
      have hHead : t = u := (List.cons.inj heq).1
      exact absurd (hHead ▸ ends) (hBody u (by simp))

end Closed

/-- The tokens behind the first one, unless that is the end of input. -/
def past : List Token → List Token
  | [] => []
  | t :: later => if t.kind = .endOfInput then t :: later else later

@[simp]
theorem past_cons {t : Token} {later : List Token} (inside : t.kind ≠ .endOfInput) :
    past (t :: later) = later := by
  simp [past, inside]

theorem leaves_past (input : List Token) : Leaves input (past input) := by
  cases input with
  | nil => exact Leaves.refl []
  | cons t later =>
      by_cases hKind : t.kind = .endOfInput
      · simpa [past, hKind] using Leaves.refl (t :: later)
      · simpa [hKind] using (Leaves.refl later).cons hKind

end Token

/-- The tokens from the one at hand on. -/
def Cursor.tokens (c : Cursor) : List Token := c.current :: c.later

namespace Production

variable {α : Type}

/-- No construct takes the end of input. -/
def Inside (R : Production α) : Prop :=
  ∀ input a rest, R input a rest → Token.Leaves input rest

/-- One token of a kind that the meaning determines. -/
def one (kind : α → Token.Kind) : Production α :=
  fun input a rest => ∃ t, input = t :: rest ∧ t.kind = kind a

end Production

/-- On closed tokens of a file a parser succeeds exactly where the production derives something, and
gives what is derived. -/
structure Parser.Accepts {α : Type} (file : String) (p : Parser α) (R : Production α) : Prop where
  inside : R.Inside
  run_iff : ∀ c : Cursor, c.file = file → Token.Closed c.tokens → ∀ a d,
    p c = .ok (a, d) ↔ d.file = file ∧ R c.tokens a d.tokens

namespace Parser

variable {α β : Type} {file : String}

/-! ### Running -/

@[simp]
theorem bind_eq_ok {p : Parser α} {q : α → Parser β} {c e : Cursor} {b : β} :
    (p >>= q) c = .ok (b, e) ↔ ∃ a d, p c = .ok (a, d) ∧ q a d = .ok (b, e) := by
  simp only [bind, StateT.bind, Except.bind]
  cases h : p c with
  | error d => simp
  | ok ad =>
      obtain ⟨a, d⟩ := ad
      exact ⟨fun hq => ⟨a, d, rfl, hq⟩, fun ⟨_, _, heq, hq⟩ => by cases heq; exact hq⟩

@[simp]
theorem pure_eq_ok {a b : α} {c d : Cursor} :
    (pure a : Parser α) c = .ok (b, d) ↔ b = a ∧ d = c := by
  have hRun : (pure a : Parser α) c = .ok (a, c) := rfl
  simp [hRun, eq_comm]

@[simp]
theorem fail_eq_ok {fault : SyntaxFault} {span : Span} {c d : Cursor} {a : α} :
    (fail fault span : Parser α) c = .ok (a, d) ↔ False := by
  simp [fail, throw, throwThe, MonadExceptOf.throw, StateT.lift, Except.bind, bind]

@[simp]
theorem kind_eq_ok {k : Token.Kind} {c d : Cursor} :
    kind c = .ok (k, d) ↔ k = c.kind ∧ d = c := by
  have hRun : kind c = .ok (c.kind, c) := rfl
  simp [hRun, eq_comm]

@[simp]
theorem nextKind_eq_ok {k : Token.Kind} {c d : Cursor} :
    nextKind c = .ok (k, d) ↔ k = c.nextKind ∧ d = c := by
  have hRun : nextKind c = .ok (c.nextKind, c) := rfl
  simp [hRun, eq_comm]

@[simp]
theorem here_eq_ok {s : Span} {c d : Cursor} : here c = .ok (s, d) ↔ s = c.span ∧ d = c := by
  have hRun : here c = .ok (c.span, c) := rfl
  simp [hRun, eq_comm]

@[simp]
theorem advance_eq_ok {u : Unit} {c d : Cursor} : advance c = .ok (u, d) ↔ d = c.advance := by
  have hRun : advance c = .ok ((), c.advance) := rfl
  simp [hRun, eq_comm]

@[simp]
theorem unexpected_eq_ok {expected : Expectation} {c d : Cursor} {a : α} :
    (unexpected expected : Parser α) c = .ok (a, d) ↔ False := by
  simp [unexpected]

/-- Moving on leaves the tokens behind the one at hand. -/
theorem tokens_advance {c : Cursor} (closed : Token.Closed c.tokens) :
    c.advance.tokens = Token.past c.tokens := by
  obtain ⟨file, t, later⟩ := c
  by_cases hKind : t.kind = .endOfInput
  · have hLast : later = [] := closed.later_eq_nil hKind
    simp [Cursor.advance, Cursor.tokens, Token.past, hKind, hLast]
  · obtain ⟨u, rest, rfl⟩ := List.exists_cons_of_ne_nil (closed.of_cons hKind).ne_nil
    simp [Cursor.advance, Cursor.tokens, hKind]

theorem kind_eq_of_tokens {c : Cursor} {t : Token} {later : List Token}
    (tokens : c.tokens = t :: later) : c.kind = t.kind :=
  congrArg Token.kind (List.cons.inj tokens).1

/-- Moving on takes the token at hand. -/
theorem tokens_eq_cons {c : Cursor} (closed : Token.Closed c.tokens)
    (inside : c.kind ≠ .endOfInput) : c.tokens = c.current :: c.advance.tokens := by
  have hKind : c.current.kind ≠ .endOfInput := inside
  rw [tokens_advance closed]
  simp [Cursor.tokens, hKind]

theorem closed_advance {c : Cursor} (closed : Token.Closed c.tokens)
    (inside : c.kind ≠ .endOfInput) : Token.Closed c.advance.tokens :=
  (tokens_eq_cons closed inside ▸ closed).of_cons inside

theorem file_advance (c : Cursor) : c.advance.file = c.file := by
  obtain ⟨file, t, later⟩ := c
  cases later <;> rfl

/-- A cursor is its file and its tokens. -/
theorem cursor_ext {c d : Cursor} (file : c.file = d.file) (tokens : c.tokens = d.tokens) :
    c = d := by
  obtain ⟨fileC, t, later⟩ := c
  obtain ⟨fileD, u, laterD⟩ := d
  simp_all [Cursor.tokens]

theorem cursor_eq_iff {c d : Cursor} : c = d ↔ c.file = d.file ∧ c.tokens = d.tokens :=
  ⟨fun h => h ▸ ⟨rfl, rfl⟩, fun h => cursor_ext h.1 h.2⟩

/-- There is a cursor at the front of any closed tokens. -/
theorem exists_cursor {input : List Token} (file : String) (closed : Token.Closed input) :
    ∃ c : Cursor, c.file = file ∧ c.tokens = input := by
  obtain ⟨t, later, rfl⟩ := List.exists_cons_of_ne_nil closed.ne_nil
  exact ⟨⟨file, t, later⟩, rfl, rfl⟩

/-! ### Putting parsers together -/

namespace Accepts

theorem congr {p : Parser α} {R S : Production α} (accepts : Accepts file p R)
    (same : ∀ input a rest, R input a rest ↔ S input a rest) : Accepts file p S where
  inside input a rest h := accepts.inside input a rest ((same input a rest).2 h)
  run_iff c hFile closed a d := by rw [accepts.run_iff c hFile closed, same]

/-- A construct behind another one, which may depend on what that stands for. -/
theorem bind {p : Parser α} {q : α → Parser β} {R : Production α} {S : α → Production β}
    (first : Accepts file p R) (second : ∀ a, Accepts file (q a) (S a)) :
    Accepts file (p >>= q) fun input b rest => ∃ a middle, R input a middle ∧ S a middle b rest where
  inside := by
    rintro input b rest ⟨a, middle, hR, hS⟩
    exact (first.inside _ _ _ hR).trans ((second a).inside _ _ _ hS)
  run_iff := by
    intro c hFile closed b e
    rw [bind_eq_ok]
    constructor
    · rintro ⟨a, d, hp, hq⟩
      obtain ⟨hd, hR⟩ := (first.run_iff c hFile closed a d).1 hp
      have hClosed := closed.of_leaves (first.inside _ _ _ hR)
      obtain ⟨he, hS⟩ := ((second a).run_iff d hd hClosed b e).1 hq
      exact ⟨he, a, d.tokens, hR, hS⟩
    · rintro ⟨he, a, middle, hR, hS⟩
      have hClosed := closed.of_leaves (first.inside _ _ _ hR)
      obtain ⟨d, hd, rfl⟩ := exists_cursor file hClosed
      exact ⟨a, d, (first.run_iff c hFile closed a d).2 ⟨hd, hR⟩,
        ((second a).run_iff d hd hClosed b e).2 ⟨he, hS⟩⟩

theorem pure (a : α) :
    Accepts file (Pure.pure a : Parser α) fun input b rest => b = a ∧ rest = input where
  inside := by
    rintro input b rest ⟨-, rfl⟩
    exact .refl _
  run_iff := by
    rintro c rfl - b d
    rw [pure_eq_ok, cursor_eq_iff]
    tauto

/-- What a construct stands for may be put into a larger thing. -/
theorem map {p : Parser α} {R : Production α} (g : α → β) (accepts : Accepts file p R) :
    Accepts file (p >>= fun a => Pure.pure (g a)) fun input b rest => ∃ a, b = g a ∧ R input a rest := by
  refine (bind accepts fun a => pure (g a)).congr fun input b rest => ?_
  constructor
  · rintro ⟨a, _, h, rfl, rfl⟩
    exact ⟨a, rfl, h⟩
  · rintro ⟨a, rfl, h⟩
    exact ⟨a, rest, h, rfl, rfl⟩

theorem fail {fault : SyntaxFault} {span : Span} :
    Accepts file (Parser.fail fault span : Parser α) fun _ _ _ => False where
  inside _ _ _ h := h.elim
  run_iff _ _ _ _ _ := by simp

theorem unexpected {expected : Expectation} :
    Accepts file (Parser.unexpected expected : Parser α) fun _ _ _ => False where
  inside _ _ _ h := h.elim
  run_iff _ _ _ _ _ := by simp

/-- A result that is refused on a condition. -/
theorem refusing {condition : Prop} [Decidable condition] {fault : SyntaxFault} {span : Span} {a : α} :
    Accepts file (if condition then Parser.fail fault span else Pure.pure a) fun input b rest =>
      ¬ condition ∧ b = a ∧ rest = input := by
  split
  · next hCondition => exact fail.congr (by simp [hCondition])
  · next hCondition => exact (pure a).congr (by simp [hCondition])

theorem ite {condition : Prop} [Decidable condition] {p q : Parser α} {R S : Production α}
    (yes : Accepts file p R) (no : Accepts file q S) :
    Accepts file (if condition then p else q) (if condition then R else S) := by
  split
  · exact yes
  · exact no

/-- The end of input is never passed. -/
theorem advance : Accepts file Parser.advance fun input _ rest => rest = Token.past input where
  inside := by
    rintro input _ rest rfl
    exact Token.leaves_past input
  run_iff := by
    rintro c rfl closed _ d
    rw [advance_eq_ok, cursor_eq_iff, tokens_advance closed, file_advance]

/-- Looking at the place of the next token takes nothing. -/
theorem here : Accepts file Parser.here fun input span rest =>
    rest = input ∧ ∀ t ∈ input.head?, span = t.span file where
  inside := by
    rintro input span rest ⟨rfl, -⟩
    exact .refl _
  run_iff := by
    rintro c rfl - span d
    rw [here_eq_ok, cursor_eq_iff]
    simp only [Cursor.tokens, Cursor.span, List.head?_cons, Option.mem_some_iff, forall_eq']
    tauto

/-- The place of the next token may go into what is read. -/
theorem atHere {q : Span → Parser α} {S : Span → Production α}
    (each : ∀ span, Accepts file (q span) (S span)) :
    Accepts file (Parser.here >>= q) fun input a rest =>
      ∃ t later, input = t :: later ∧ S (t.span file) input a rest where
  inside := by
    rintro input a rest ⟨t, later, -, h⟩
    exact (each _).inside _ _ _ h
  run_iff := by
    rintro c rfl closed a d
    simp only [bind_eq_ok, here_eq_ok]
    constructor
    · rintro ⟨_, _, ⟨rfl, rfl⟩, hRun⟩
      obtain ⟨hd, h⟩ := ((each _).run_iff _ rfl closed a d).1 hRun
      exact ⟨hd, _, _, rfl, h⟩
    · rintro ⟨hd, _, _, heq, h⟩
      cases heq
      exact ⟨_, _, ⟨rfl, rfl⟩, ((each _).run_iff _ rfl closed a d).2 ⟨hd, h⟩⟩

/-- The place of the next token need not go into what is read. -/
theorem ignoringHere {q : Span → Parser α} {S : Production α}
    (each : ∀ span, Accepts file (q span) S) : Accepts file (Parser.here >>= q) S := by
  refine (bind here each).congr fun input a rest => ?_
  constructor
  · rintro ⟨_, _, ⟨rfl, -⟩, h⟩
    exact h
  · intro h
    cases input with
    | nil => exact ⟨⟨file, 0, 0⟩, [], ⟨rfl, by simp⟩, h⟩
    | cons t later => exact ⟨t.span file, _, ⟨rfl, by simp⟩, h⟩

/-- A construct behind the next token. -/
theorem behind {q : Unit → Parser α} {S : Production α} (others : Accepts file (q ()) S) :
    Accepts file (Parser.advance >>= q) fun input a rest => S (Token.past input) a rest := by
  refine (bind advance fun _ => others).congr fun input a rest => ?_
  constructor
  · rintro ⟨_, _, rfl, h⟩
    exact h
  · intro h
    exact ⟨(), _, rfl, h⟩

/-- A choice by a kind that is looked at takes what the chosen parser takes. -/
theorem onPeek {peek : Parser Token.Kind} (look : Token → List Token → Token.Kind)
    (looks : ∀ c k d, peek c = .ok (k, d) ↔ k = look c.current c.later ∧ d = c)
    {f : Token.Kind → Parser α} {S : Token.Kind → Production α} (each : ∀ k, Accepts file (f k) (S k)) :
    Accepts file (peek >>= f) fun input a rest =>
      ∃ t later, input = t :: later ∧ S (look t later) input a rest where
  inside := by
    rintro input a rest ⟨t, later, -, h⟩
    exact (each _).inside _ _ _ h
  run_iff := by
    rintro c hFile closed a d
    simp only [bind_eq_ok, looks]
    constructor
    · rintro ⟨_, _, ⟨rfl, rfl⟩, hRun⟩
      obtain ⟨hd, h⟩ := ((each _).run_iff _ hFile closed a d).1 hRun
      exact ⟨hd, _, _, rfl, h⟩
    · rintro ⟨hd, _, _, heq, h⟩
      cases heq
      exact ⟨_, _, ⟨rfl, rfl⟩, ((each _).run_iff _ hFile closed a d).2 ⟨hd, h⟩⟩

theorem onKind {f : Token.Kind → Parser α} {S : Token.Kind → Production α}
    (each : ∀ k, Accepts file (f k) (S k)) :
    Accepts file (Parser.kind >>= f) fun input a rest =>
      ∃ t later, input = t :: later ∧ S t.kind input a rest :=
  onPeek (fun t _ => t.kind) (fun _ _ _ => kind_eq_ok) each

/-- A choice by the kind of the next token may be checked against the production one kind at a
time. -/
theorem byKind {f : Token.Kind → Parser α} {R : Production α} (starts : ∀ a rest, ¬ R [] a rest)
    (each : ∀ k, ∃ S, Accepts file (f k) S ∧ ∀ t later, t.kind = k →
      ∀ a rest, S (t :: later) a rest ↔ R (t :: later) a rest) :
    Accepts file (Parser.kind >>= f) R := by
  choose S hAccepts hSame using each
  refine (onKind hAccepts).congr fun input a rest => ?_
  constructor
  · rintro ⟨t, later, rfl, h⟩
    exact (hSame _ t later rfl a rest).1 h
  · intro h
    cases input with
    | nil => exact absurd h (starts a rest)
    | cons t later => exact ⟨t, later, rfl, (hSame _ t later rfl a rest).2 h⟩

/-- The kind of the token behind the next one is looked at; at the end of input that is the same. -/
theorem onNextKind {f : Token.Kind → Parser α} {S : Token.Kind → Production α}
    (each : ∀ k, Accepts file (f k) (S k)) :
    Accepts file (Parser.nextKind >>= f) fun input a rest =>
      ∃ t later, input = t :: later ∧ S (later.head?.getD t).kind input a rest :=
  onPeek (fun t later => (later.head?.getD t).kind) (fun _ _ _ => nextKind_eq_ok) each

/-- A token is taken if its kind is the one that some result stands for. -/
theorem one {kind : α → Token.Kind} (inside : ∀ a, kind a ≠ .endOfInput)
    (injective : ∀ a b, kind a = kind b → a = b) {f : Token.Kind → Parser α}
    (hit : ∀ a, f (kind a) = (do Parser.advance; return a))
    (miss : ∀ k, (∀ a, k ≠ kind a) → ∃ expected, f k = Parser.unexpected expected) :
    Accepts file (Parser.kind >>= f) (Production.one kind) := by
  have hEach : ∀ k, Accepts file (f k) fun input a rest => k = kind a ∧ rest = Token.past input := by
    intro k
    by_cases hKind : ∃ a, k = kind a
    · obtain ⟨a, rfl⟩ := hKind
      rw [hit a]
      refine (bind advance fun _ => pure a).congr ?_
      intro input b rest
      constructor
      · rintro ⟨_, middle, hPast, rfl, rfl⟩
        exact ⟨rfl, hPast⟩
      · rintro ⟨hKind, hPast⟩
        exact ⟨(), rest, hPast, (injective _ _ hKind).symm, rfl⟩
    · obtain ⟨expected, hMiss⟩ := miss k fun a h => hKind ⟨a, h⟩
      rw [hMiss]
      exact unexpected.congr fun _ a _ => ⟨False.elim, fun h => hKind ⟨a, h.1⟩⟩
  refine (onKind hEach).congr ?_
  intro input a rest
  constructor
  · rintro ⟨t, later, rfl, hKind, rfl⟩
    exact ⟨t, by simp [hKind, inside], hKind⟩
  · rintro ⟨t, rfl, hKind⟩
    exact ⟨t, rest, rfl, hKind, by simp [hKind, inside]⟩

theorem mark (m : Mark) : Accepts file (Parser.mark m) (Production.one fun _ => .mark m) := by
  refine one (by simp) (fun _ _ _ => rfl) (fun _ => ?_) fun k hMiss => ⟨_, if_neg (hMiss ())⟩
  rw [if_pos rfl]
  rfl

theorem word : Accepts file Parser.word (Production.one .word) := by
  refine one (by simp) (by simp) (fun _ => rfl) fun k hMiss => ?_
  cases k with
  | word text => exact absurd rfl (hMiss text)
  | _ => exact ⟨_, rfl⟩

theorem quoted : Accepts file Parser.quoted (Production.one .quoted) := by
  refine one (by simp) (by simp) (fun _ => rfl) fun k hMiss => ?_
  cases k with
  | quoted text => exact absurd rfl (hMiss text)
  | _ => exact ⟨_, rfl⟩

/-- A mark that may be missing is taken where it stands. -/
theorem optionalMark (m : Mark) : Accepts file (Parser.optionalMark m) fun input found rest =>
    (found = true ∧ ∃ t, input = t :: rest ∧ t.kind = .mark m) ∨
      (found = false ∧ rest = input ∧ ∃ t later, input = t :: later ∧ t.kind ≠ .mark m) := by
  refine (onKind fun k => ite (bind advance fun _ => pure true) (pure false)).congr ?_
  intro input found rest
  constructor
  · rintro ⟨t, later, rfl, h⟩
    by_cases hKind : t.kind = .mark m
    · simp only [hKind, if_true] at h
      obtain ⟨_, middle, rfl, rfl, rfl⟩ := h
      exact .inl ⟨rfl, t, by simp [hKind], hKind⟩
    · simp only [hKind, if_false] at h
      exact .inr ⟨h.1, h.2, t, later, rfl, hKind⟩
  · rintro (⟨rfl, t, rfl, hKind⟩ | ⟨rfl, rfl, t, later, rfl, hKind⟩)
    · exact ⟨t, rest, rfl, by simp [hKind]⟩
    · exact ⟨t, later, rfl, by simp [hKind]⟩

end Accepts

end Parser

end TypedConfig
