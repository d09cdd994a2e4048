import TypedConfig.Diagnostic
import TypedConfig.Proofs.Brackets
/-!
Tokens that stop inside of a block. Only the loop over a block knows that the end of input leaves
the block open; wherever something else has to follow, the end of input is one more token that does
not fit. The tokens in front of the end, and the one that would have followed, tell the two cases
apart.
-/
namespace TypedConfig

namespace Token

/-- The kind of the last one of some tokens. -/
def lastKind? (tokens : List Token) : Option Kind := tokens.getLast?.map Token.kind

@[simp]
theorem lastKind?_concat (tokens : List Token) (t : Token) :
    lastKind? (tokens ++ [t]) = some t.kind := by
  simp [lastKind?]

/-- The innermost block that is open behind the tokens, and the bracket that opens it. -/
def Innermost (tokens : List Token) (b : Bracket) (o : Token) : Prop :=
  ∃ outer inner, tokens = outer ++ o :: inner ∧ o.kind = .mark (.opening b) ∧ Balanced inner

/-- The tokens stop inside of a declaration: the outermost block that is open has a name in front of
it, as the root object has not. -/
def Declaring (tokens : List Token) : Prop :=
  ∃ front name brace body text, tokens = front ++ name :: brace :: body ∧ Balanced front ∧
    name.kind = .word text ∧ brace.kind = .mark (.opening .brace) ∧ (openBehind? [] body).isSome

/-- The argument of a keyword comes next. The name of an alternative, which has a dot in front of
it, is no keyword. -/
def AwaitsArgument (tokens : List Token) : Prop :=
  ∃ front keyword round text, tokens = front ++ [keyword, round] ∧ keyword.kind = .word text ∧
    round.kind = .mark (.opening .round) ∧ lastKind? front ≠ some (.mark .dot)

/-- A block could end behind a token of the given kind, with other tokens in front of it and a token
of the kind `next` behind it. A word is more than a name that something has to follow if it is a
literal, the name of an alternative, or a type. -/
def PausesAt (before : List Token) (next : Kind) : Kind → Prop
  | .mark (.opening .brace) => True
  | .mark (.opening .square) => ¬ Declaring before
  | .mark (.closing _) => True
  | .mark .comma => ∀ o, ¬ Innermost before .round o
  | .mark _ => False
  | .integer _ => True
  | .fraction _ => True
  | .quoted _ => ¬ AwaitsArgument before
  | .word text =>
    next ≠ .mark .colon ∧ next ≠ .mark .question ∧ next ≠ .mark .dot ∧
      ∀ b, next = .mark (.opening b) →
        text ∈ ["true", "false", "null"] ∨ lastKind? before = some (.mark .dot) ∨
          (lastKind? before ≠ some (.mark .colon) ∧ ∃ o, Innermost before .brace o)
  | .endOfInput => False

/-- The innermost block could end behind the tokens, if `next` stands there. -/
def Pauses (tokens : List Token) (next : Token) : Prop :=
  ∃ before last, tokens = before ++ [last] ∧ PausesAt before next.kind last.kind

variable {tokens before moved outer inner : List Token} {next t o : Token} {b : Bracket}

@[simp]
theorem pauses_concat : Pauses (before ++ [t]) next ↔ PausesAt before next.kind t.kind := by
  constructor
  · rintro ⟨before', last, heq, hPauses⟩
    obtain ⟨rfl, hLast⟩ := List.append_inj' heq rfl
    obtain rfl := List.singleton_inj.1 hLast
    exact hPauses
  · exact fun hPauses => ⟨before, t, rfl, hPauses⟩

/-! ### Open blocks -/

theorem openBehind?_isSome_append {front : List Token} (opens : (openBehind? [] front).isSome)
    (moves : (openBehind? [] moved).isSome) : (openBehind? [] (front ++ moved)).isSome := by
  obtain ⟨s, hFront⟩ := Option.isSome_iff_exists.1 opens
  obtain ⟨s', hMoved⟩ := Option.isSome_iff_exists.1 moves
  rw [openBehind?_append, hFront, Option.bind_some]
  have hBehind := openBehind?_outer hMoved s
  rw [List.nil_append] at hBehind
  rw [hBehind]
  rfl

theorem Balanced.isSome (balanced : Balanced moved) : (openBehind? [] moved).isSome := by
  rw [balanced.openBehind?_eq]
  rfl

theorem Balanced.append (front : Balanced before) (behind : Balanced moved) :
    Balanced (before ++ moved) := by
  rw [balanced_iff, openBehind?_append, front.openBehind?_eq, Option.bind_some,
    behind.openBehind?_eq]

/-- A block that is closed again is balanced. -/
theorem Balanced.block {u : Token} (opening : o.kind = .mark (.opening b))
    (inside : Balanced inner) (closing : u.kind = .mark (.closing b)) :
    Balanced (o :: (inner ++ [u])) :=
  .nested opening inside closing .nil

theorem Balanced.one (plain : t.kind.IsPlain) : Balanced [t] := .plain plain .nil

/-- Nothing balanced ends inside of an open block. -/
theorem not_balanced_of_open (opening : o.kind = .mark (.opening b)) (inside : Balanced inner) :
    ¬ Balanced (outer ++ o :: inner) := by
  rw [balanced_iff, openBehind?_append]
  cases openBehind? [] outer with
  | none => simp
  | some s =>
      rw [Option.bind_some, openBehind?_opening opening, inside.openBehind?_eq]
      simp

/-- A bracket with balanced tokens behind it does not stand inside of another open block. -/
theorem eq_of_open_behind {mid inner' : List Token} {b' : Bracket} {o' : Token}
    (opening : o.kind = .mark (.opening b)) (opening' : o'.kind = .mark (.opening b'))
    (inside : Balanced inner) (same : o :: inner = mid ++ o' :: inner') (inside' : Balanced inner') :
    b = b' ∧ o = o' := by
  cases mid with
  | nil =>
      obtain ⟨rfl, -⟩ := List.cons.inj same
      exact ⟨by simpa using opening.symm.trans opening', rfl⟩
  | cons t mid =>
      obtain ⟨-, rfl⟩ := List.cons.inj same
      exact absurd inside (not_balanced_of_open opening' inside')

/-- There is only one innermost block. -/
theorem Innermost.unique {b' : Bracket} {o' : Token} (left : Innermost tokens b o)
    (right : Innermost tokens b' o') : b = b' ∧ o = o' := by
  obtain ⟨outer, inner, rfl, hOpening, hInner⟩ := left
  obtain ⟨outer', inner', heq, hOpening', hInner'⟩ := right
  rcases List.append_eq_append_iff.1 heq with ⟨mid, -, hSame⟩ | ⟨mid, -, hSame⟩
  · exact eq_of_open_behind hOpening hOpening' hInner hSame hInner'
  · exact (eq_of_open_behind hOpening' hOpening hInner' hSame hInner).imp .symm .symm

/-- Balanced tokens inside of a block do not close it. -/
theorem Innermost.append (innermost : Innermost tokens b o) (balanced : Balanced moved) :
    Innermost (tokens ++ moved) b o := by
  obtain ⟨outer, inner, rfl, hOpening, hInner⟩ := innermost
  exact ⟨outer, inner ++ moved, by simp, hOpening, hInner.append balanced⟩

theorem Innermost.concat (opening : t.kind = .mark (.opening b)) :
    Innermost (tokens ++ [t]) b t :=
  ⟨tokens, [], rfl, opening, .nil⟩

/-! ### Declarations and the root object -/

/-- The tokens stop inside of the root object, which stands behind something else than a name. -/
def Rooted (tokens : List Token) : Prop :=
  ∃ front brace body, tokens = front ++ brace :: body ∧ Balanced front ∧
    (∀ text, lastKind? front ≠ some (.word text)) ∧ brace.kind = .mark (.opening .brace) ∧
    (openBehind? [] body).isSome

theorem Declaring.append (declaring : Declaring tokens) (moves : (openBehind? [] moved).isSome) :
    Declaring (tokens ++ moved) := by
  obtain ⟨front, name, brace, body, text, rfl, hFront, hName, hBrace, hBody⟩ := declaring
  exact ⟨front, name, brace, body ++ moved, text, by simp, hFront, hName, hBrace,
    openBehind?_isSome_append hBody moves⟩

theorem Rooted.append (rooted : Rooted tokens) (moves : (openBehind? [] moved).isSome) :
    Rooted (tokens ++ moved) := by
  obtain ⟨front, brace, body, rfl, hFront, hName, hBrace, hBody⟩ := rooted
  exact ⟨front, brace, body ++ moved, by simp, hFront, hName, hBrace,
    openBehind?_isSome_append hBody moves⟩

/-- What is balanced and has the outermost open block in front of it does not reach further than
that block. -/
theorem length_le_of_outermost {front front' body body' : List Token} {brace brace' : Token}
    (same : front ++ brace :: body = front' ++ brace' :: body')
    (opening : brace.kind = .mark (.opening b)) (opens : (openBehind? [] body).isSome)
    (balanced : Balanced front) (balanced' : Balanced front') : front'.length ≤ front.length := by
  rcases List.append_eq_append_iff.1 same with ⟨mid, rfl, hMid⟩ | ⟨mid, rfl, -⟩
  · cases mid with
    | nil => simp
    | cons t mid =>
        obtain ⟨rfl, hBody⟩ := List.cons.inj hMid
        -- the block would have to be closed again in what stands between
        rw [hBody, List.append_eq, openBehind?_append] at opens
        cases hBetween : openBehind? [] mid with
        | none => simp [hBetween] at opens
        | some s =>
            rw [balanced_iff, openBehind?_append, balanced.openBehind?_eq, Option.bind_some,
              openBehind?_opening opening] at balanced'
            have hBehind := openBehind?_outer hBetween [b]
            rw [List.nil_append, balanced'] at hBehind
            simp at hBehind
  · simp

/-- The root object is no declaration. -/
theorem Rooted.not_declaring (rooted : Rooted tokens) : ¬ Declaring tokens := by
  rintro ⟨front', name, brace', body', text, heq', hFront', hName, hBrace', hBody'⟩
  obtain ⟨front, brace, body, heq, hFront, hLast, hBrace, hBody⟩ := rooted
  have hBalanced : Balanced (front' ++ [name]) :=
    hFront'.append (.one (by simp [Kind.IsPlain, hName]))
  have hSame : front ++ brace :: body = (front' ++ [name]) ++ brace' :: body' := by
    rw [← heq, heq']
    simp
  have hLength := Nat.le_antisymm
    (length_le_of_outermost hSame.symm hBrace' hBody' hBalanced hFront)
    (length_le_of_outermost hSame hBrace hBody hFront hBalanced)
  obtain ⟨hFronts, -⟩ := List.append_inj hSame hLength
  exact hLast text (by simp [hFronts, hName])

end Token

end TypedConfig
