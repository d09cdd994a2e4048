import TypedConfig.Diagnostic
import TypedConfig.Number.DecimalText
import TypedConfig.Text.Blank
import TypedConfig.Text.Quoted
/-!
Lexemes: what stands at the front of a text is a token, a comment or a blank, each as long as it can
be, except that every blank character is a lexeme of its own. A lexeme takes at least one character,
and together with the text after it makes up the text it was taken from.
-/
namespace TypedConfig

/-- What the lexer takes as one from the front of a text: the token it is, none for blanks and
comments, the characters it is made of, and the text after it. -/
structure Lexeme where
  kind : Option Token.Kind
  used : List Char
  rest : List Char
deriving Repr, DecidableEq

namespace Lexeme

/-- Whether a word can begin with a character. -/
def isWordStart (c : Char) : Bool := c.isAlpha || c == '_'

/-- Whether a word can go on with a character. -/
def isWordPart (c : Char) : Bool := c.isAlphanum || c == '_'

/-- A comment up to the end of its line. -/
def lineComment (cs : List Char) : Lexeme :=
  ⟨none, cs.takeWhile (· != '\n'), cs.dropWhile (· != '\n')⟩

/-- Cuts a text after the first end of a block comment, if there is one. -/
def splitComment : List Char → Option (List Char × List Char)
  | [] => none
  | c :: cs =>
    if c = '*' ∧ cs.head? = some '/' then some ([c, '/'], cs.tail)
    else (splitComment cs).map fun (inside, rest) => (c :: inside, rest)

/-- The fraction at the front of a text, with its point, and the text after it. A point without a
digit behind it starts no fraction. -/
def splitFraction : List Char → List Char × List Char
  | '.' :: d :: cs =>
    if d.isDigit then ('.' :: d :: cs.takeWhile Char.isDigit, cs.dropWhile Char.isDigit)
    else ([], '.' :: d :: cs)
  | cs => ([], cs)

/-- A number with its sign already read. It is an integer if it has no fraction, and then it has to
be in range; with a fraction it has to be finite. -/
def number (sign cs : List Char) : Except LexFault Lexeme :=
  let whole := sign ++ cs.takeWhile Char.isDigit
  let (fraction, rest) := splitFraction (cs.dropWhile Char.isDigit)
  let text := whole ++ fraction
  if fraction.isEmpty then
    match Number.readInteger text with
    | some value => .ok ⟨some (.integer value), text, rest⟩
    | none => .error (.number (String.ofList text))
  else if (Number.Binary64.read text).any Number.Binary64.isFinite then
    .ok ⟨some (.fraction (String.ofList text)), text, rest⟩
  else .error (.number (String.ofList text))

/-- The lexeme at the front of a text that starts with the given character. -/
def next (c : Char) (cs : List Char) : Except LexFault Lexeme :=
  if c = '/' ∧ cs.head? = some '/' then .ok (lineComment (c :: cs))
  else if c = '/' ∧ cs.head? = some '*' then
    match splitComment cs.tail with
    | some (inside, rest) => .ok ⟨none, '/' :: '*' :: inside, rest⟩
    | none => .error .unterminatedComment
  else if Text.isBlank c then .ok ⟨none, [c], cs⟩
  else if c = '"' then
    match Text.Quoted.read cs with
    | some q => .ok ⟨some (.quoted (String.ofList q.value)), c :: q.used, q.rest⟩
    | none => .error .unterminatedString
  else if c.isDigit then number [] (c :: cs)
  else if c = '-' ∧ cs.head?.any Char.isDigit then number [c] cs
  else
    match Mark.ofChar? c with
    | some m => .ok ⟨some (.mark m), [c], cs⟩
    | none =>
      if isWordStart c then
        .ok ⟨some (.word (String.ofList (c :: cs.takeWhile isWordPart))),
          c :: cs.takeWhile isWordPart, cs.dropWhile isWordPart⟩
      else .error (.character c)

/-! ### Nothing is lost -/

theorem splitComment_append {cs inside rest : List Char}
    (h : splitComment cs = some (inside, rest)) : inside ++ rest = cs := by
  induction cs generalizing inside with
  | nil => simp [splitComment] at h
  | cons c cs ih =>
    rw [splitComment] at h
    split at h
    · next hc =>
      cases h
      cases cs <;> simp_all
    · obtain ⟨⟨inside', rest'⟩, h', heq⟩ := Option.map_eq_some_iff.1 h
      cases heq
      simp [ih h']

theorem splitFraction_append (cs : List Char) :
    (splitFraction cs).1 ++ (splitFraction cs).2 = cs := by
  unfold splitFraction
  split
  · split <;> simp
  · simp

/-- What a number is made of: its sign, its digits and its fraction. -/
theorem number_parts {sign cs : List Char} {l : Lexeme} (h : number sign cs = .ok l) :
    l.used = sign ++ cs.takeWhile Char.isDigit ++ (splitFraction (cs.dropWhile Char.isDigit)).1 ∧
      l.rest = (splitFraction (cs.dropWhile Char.isDigit)).2 := by
  revert h
  fun_cases Lexeme.number sign cs
  -- an integer in range and a finite fraction are numbers
  case case1 _ _ _ hSplit _ _ _ _ | case3 _ _ _ hSplit _ _ _ =>
    intro h
    cases h
    rw [hSplit]
    exact ⟨rfl, rfl⟩
  all_goals
    intro h
    cases h

theorem number_append {sign cs : List Char} {l : Lexeme} (h : number sign cs = .ok l) :
    l.used ++ l.rest = sign ++ cs := by
  obtain ⟨hUsed, hRest⟩ := number_parts h
  rw [hUsed, hRest, List.append_assoc, List.append_assoc, splitFraction_append,
    List.takeWhile_append_dropWhile]

end Lexeme

theorem Text.Quoted.used_append_rest {cs : List Char} {q : Quoted} (h : Quoted.read cs = some q) :
    q.used ++ q.rest = cs := by
  fun_induction Quoted.read cs generalizing q with
  | case1 => simp at h
  | case2 => simp at h
  | case3 => simp at h
  | case4 c rest _ ih =>
    obtain ⟨p, hp, rfl⟩ := Option.map_eq_some_iff.1 h
    cases unescapeLetter? c <;> simp [ih hp]
  | case5 => cases h; simp
  | case6 => simp at h
  | case7 c rest _ _ _ _ ih =>
    obtain ⟨p, hp, rfl⟩ := Option.map_eq_some_iff.1 h
    simp [ih hp]

namespace Lexeme

/-- A lexeme and the text after it make up the text it was taken from. -/
theorem used_append_rest {c : Char} {cs : List Char} {l : Lexeme} (h : next c cs = .ok l) :
    l.used ++ l.rest = c :: cs := by
  revert h
  fun_cases Lexeme.next c cs
  case case1 =>
    intro h
    cases h
    exact List.takeWhile_append_dropWhile
  case case2 hBlock inside rest hSplit =>
    intro h
    cases h
    obtain ⟨cs, rfl⟩ := List.head?_eq_some_iff.1 hBlock.2
    rw [hBlock.1, ← show inside ++ rest = cs from splitComment_append hSplit]
    rfl
  case case4 =>
    intro h
    cases h
    rfl
  case case5 q hRead =>
    intro h
    cases h
    exact congrArg (c :: ·) (Text.Quoted.used_append_rest hRead)
  case case7 | case8 => exact number_append
  case case9 =>
    intro h
    cases h
    rfl
  case case10 =>
    intro h
    cases h
    exact congrArg (c :: ·) List.takeWhile_append_dropWhile
  -- nothing is read in the other cases
  all_goals
    intro h
    cases h

theorem number_used_ne_nil {sign cs : List Char} {l : Lexeme} (h : number sign cs = .ok l)
    (hs : sign ≠ [] ∨ cs.head?.any Char.isDigit) : l.used ≠ [] := by
  have hWhole : sign ++ cs.takeWhile Char.isDigit ≠ [] := by
    cases hs with
    | inl hs => simp [hs]
    | inr hs => cases cs <;> simp_all
  rw [(number_parts h).1]
  exact List.append_ne_nil_of_left_ne_nil hWhole _

theorem used_ne_nil {c : Char} {cs : List Char} {l : Lexeme} (h : next c cs = .ok l) :
    l.used ≠ [] := by
  revert h
  fun_cases Lexeme.next c cs
  case case1 hLine =>
    intro h
    cases h
    simp [lineComment, hLine.1]
  case case7 hDigit => exact fun h => number_used_ne_nil h (.inr hDigit)
  case case8 => exact fun h => number_used_ne_nil h (.inl (List.cons_ne_nil _ _))
  case case2 | case4 | case5 | case9 | case10 =>
    intro h
    cases h
    exact List.cons_ne_nil _ _
  all_goals
    intro h
    cases h

/-- A lexeme takes at least one character. -/
theorem rest_length_lt {c : Char} {cs : List Char} {l : Lexeme} (h : next c cs = .ok l) :
    l.rest.length < (c :: cs).length := by
  have := List.length_pos_iff.2 (used_ne_nil h)
  rw [← used_append_rest h, List.length_append]
  omega

/-- Induction along the lexemes of a text: it is over, or what it starts with is no lexeme, or there
is a lexeme in front of it and the text behind the lexeme has been dealt with. -/
@[elab_as_elim]
theorem induct {motive : List Char → Prop} (text : List Char) (nil : motive [])
    (fault : ∀ c cs fault, next c cs = .error fault → motive (c :: cs))
    (step : ∀ c cs l, next c cs = .ok l → motive l.rest → motive (c :: cs)) : motive text := by
  induction hLength : text.length using Nat.strongRecOn generalizing text with
  | ind n ih =>
      cases text with
      | nil => exact nil
      | cons c cs =>
          cases hNext : next c cs with
          | error f => exact fault c cs f hNext
          | ok l => exact step c cs l hNext (ih _ (hLength ▸ rest_length_lt hNext) l.rest rfl)

end Lexeme

end TypedConfig
