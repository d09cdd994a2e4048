import TypedConfig.Proofs.Printing.Lexing
/-!
What decides where a lexeme ends. A lexeme is read in the same way in front of any text with which
it does not go on, so the text behind it may be cut off, exchanged, or begin on a new line.
-/
namespace TypedConfig

namespace Lexeme

/-- A lexeme that ends in front of one text ends in front of the other too. The other text is empty,
begins on a new line, or begins with the same character; and it begins with the fraction of a
number only if the first text does. -/
structure StopsAlike (rest rest' : List Char) : Prop where
  first : ∀ c ∈ rest'.head?, c = '\n' ∨ rest.head? = some c
  second : ∀ d ds, rest' = '.' :: d :: ds → d.isDigit = true → ∃ ds', rest = '.' :: d :: ds'

namespace StopsAlike

variable {rest rest' rest'' : List Char}

theorem refl (rest : List Char) : StopsAlike rest rest :=
  ⟨fun _ mem => .inr mem, fun _ ds h _ => ⟨ds, h⟩⟩

theorem trans (left : StopsAlike rest rest') (right : StopsAlike rest' rest'') :
    StopsAlike rest rest'' := by
  apply StopsAlike.mk
  · intro c mem
    rcases right.first c mem with hLine | hSame
    · exact .inl hLine
    · exact left.first c hSame
  · intro d ds h digit
    obtain ⟨ds', h'⟩ := right.second d ds h digit
    exact left.second d ds' h' digit

theorem nil (rest : List Char) : StopsAlike rest [] :=
  ⟨nofun, nofun⟩

theorem newline (rest more : List Char) : StopsAlike rest ('\n' :: more) := by
  apply StopsAlike.mk
  · intro c mem
    cases mem
    exact .inl rfl
  · intro d ds h
    cases h

theorem quote (rest rest' : List Char) : StopsAlike ('"' :: rest) ('"' :: rest') := by
  apply StopsAlike.mk
  · intro c mem
    exact .inr mem
  · intro d ds h
    cases h

/-- The same characters may stand in front of both texts. -/
theorem append (alike : StopsAlike rest rest') (front : List Char) :
    StopsAlike (front ++ rest) (front ++ rest') := by
  cases front with
  | nil => exact alike
  | cons c front =>
      apply StopsAlike.mk
      · intro d mem
        exact .inr mem
      · intro d ds h digit
        cases front with
        | cons e front =>
            cases h
            exact ⟨_, rfl⟩
        | nil =>
            -- only the point stands in front, and the digit behind it begins both texts
            obtain ⟨rfl, rfl⟩ := List.cons.inj h
            rcases alike.first d rfl with rfl | hSame
            · exact absurd digit (by decide)
            · obtain ⟨ds', rfl⟩ := List.head?_eq_some_iff.1 hSame
              exact ⟨ds', rfl⟩

/-- A character that begins the second text and no new line begins the first text too. -/
theorem head?_eq_some (alike : StopsAlike rest rest') {c : Char} (other : c ≠ '\n')
    (head : rest'.head? = some c) : rest.head? = some c :=
  (alike.first c head).resolve_left other

/-- A character that begins no comment in front of the first text begins none in front of the
other. -/
theorem not_pair (alike : StopsAlike rest rest') {c d : Char} (other : d ≠ '\n')
    (alone : ¬(c = '/' ∧ rest.head? = some d)) : ¬(c = '/' ∧ rest'.head? = some d) :=
  fun h => alone ⟨h.1, alike.head?_eq_some other h.2⟩

/-- A character that is no sign of a number in front of the first text is none in front of the
other. -/
theorem not_sign (alike : StopsAlike rest rest') {c : Char}
    (alone : ¬(c = '-' ∧ rest.head?.any Char.isDigit = true)) :
    ¬(c = '-' ∧ rest'.head?.any Char.isDigit = true) := by
  rintro ⟨hMinus, hAny⟩
  obtain ⟨d, hHead, hDigit⟩ := (Option.any_eq_true _ _).1 hAny
  have hOther : d ≠ '\n' := by
    rintro rfl
    exact absurd hDigit (by decide)
  exact alone ⟨hMinus, (Option.any_eq_true _ _).2 ⟨d, alike.head?_eq_some hOther hHead, hDigit⟩⟩

/-- Characters up to a stop are the same in front of both texts. -/
theorem takeWhile_dropWhile {q : Char → Bool} {cs : List Char}
    (alike : StopsAlike (cs.dropWhile q) rest') (line : q '\n' = false) :
    (cs.takeWhile q ++ rest').takeWhile q = cs.takeWhile q ∧
      (cs.takeWhile q ++ rest').dropWhile q = rest' := by
  have hEach : ∀ c ∈ cs.takeWhile q, q c = true := fun c mem =>
    List.all_eq_true.1 List.all_takeWhile c mem
  have hEnds : ∀ c ∈ rest'.head?, q c = false := by
    intro c mem
    rcases alike.first c mem with rfl | hSame
    · exact line
    · have hStop := List.head?_dropWhile_not q cs
      rw [hSame] at hStop
      simpa using hStop
  exact ⟨takeWhile_append_stop hEach hEnds, dropWhile_append_stop hEach hEnds⟩

end StopsAlike

/-! ### Parts of lexemes -/

variable {rest rest' : List Char}

theorem lineComment_local {cs : List Char} (alike : StopsAlike (lineComment cs).rest rest') :
    lineComment ((lineComment cs).used ++ rest') = ⟨none, (lineComment cs).used, rest'⟩ := by
  obtain ⟨hTake, hDrop⟩ := alike.takeWhile_dropWhile (by decide)
  simp only [lineComment, hTake, hDrop]

theorem splitComment_ne_nil {cs inside : List Char}
    (split : splitComment cs = some (inside, rest)) : inside ≠ [] := by
  cases cs with
  | nil => cases split
  | cons c cs =>
      rw [splitComment] at split
      split at split
      · cases split
        simp
      · obtain ⟨_, -, hEq⟩ := Option.map_eq_some_iff.1 split
        cases hEq
        simp

theorem splitComment_local {cs inside : List Char} (split : splitComment cs = some (inside, rest))
    (rest' : List Char) : splitComment (inside ++ rest') = some (inside, rest') := by
  induction cs generalizing inside with
  | nil => cases split
  | cons c cs ih =>
      rw [splitComment] at split
      by_cases hEnd : c = '*' ∧ cs.head? = some '/'
      · rw [if_pos hEnd] at split
        cases split
        simp [splitComment, hEnd.1]
      · rw [if_neg hEnd] at split
        obtain ⟨⟨inside', rest⟩, hSplit, hEq⟩ := Option.map_eq_some_iff.1 split
        cases hEq
        have hNonempty : inside' ≠ [] := splitComment_ne_nil hSplit
        obtain ⟨d, inside', rfl⟩ := List.exists_cons_of_ne_nil hNonempty
        have hHead : cs.head? = some d := by rw [← splitComment_append hSplit]; rfl
        have hOther : ¬(c = '*' ∧ (d :: inside' ++ rest').head? = some '/') := by
          rw [hHead] at hEnd
          exact hEnd
        rw [List.cons_append, splitComment, if_neg hOther, ih hSplit]
        rfl

theorem splitFraction_local {cs fraction : List Char} (split : splitFraction cs = (fraction, rest))
    (alike : StopsAlike rest rest') : splitFraction (fraction ++ rest') = (fraction, rest') := by
  have hWhole := splitFraction_append cs
  rw [split] at hWhole
  cases fraction with
  | nil =>
      obtain rfl : rest = cs := hWhole
      have hNone := splitFraction_eq_nil_iff.1 split
      apply splitFraction_eq_nil_iff.2
      intro d ds h
      cases hDigit : d.isDigit with
      | false => rfl
      | true =>
          obtain ⟨ds', hRest⟩ := alike.second d ds h hDigit
          rw [hNone d ds' hRest] at hDigit
          cases hDigit
  | cons c fraction =>
      rw [splitFraction.eq_def] at split
      split at split
      · next d ds =>
        by_cases hDigit : d.isDigit = true
        · rw [if_pos hDigit] at split
          obtain ⟨hFraction, rfl⟩ := Prod.mk.inj split
          obtain ⟨hTake, hDrop⟩ := alike.takeWhile_dropWhile (by decide)
          rw [← hFraction]
          simp only [List.cons_append, splitFraction, if_pos hDigit, hTake, hDrop]
        · rw [if_neg hDigit] at split
          cases split
      · cases split

/-- The token that a number with the given sign and digits makes, if it is in range. -/
def numberKind (whole fraction : List Char) : Except LexFault Token.Kind :=
  if fraction.isEmpty then
    match Number.readInteger (whole ++ fraction) with
    | some value => .ok (.integer value)
    | none => .error (.number (String.ofList (whole ++ fraction)))
  else if (Number.Binary64.read (whole ++ fraction)).any Number.Binary64.isFinite then
    .ok (.fraction (String.ofList (whole ++ fraction)))
  else .error (.number (String.ofList (whole ++ fraction)))

theorem number_eq {sign cs fraction behind : List Char}
    (split : splitFraction (cs.dropWhile Char.isDigit) = (fraction, behind)) :
    number sign cs = (numberKind (sign ++ cs.takeWhile Char.isDigit) fraction).map fun kind =>
      ⟨some kind, sign ++ cs.takeWhile Char.isDigit ++ fraction, behind⟩ := by
  simp only [number, split, numberKind]
  split
  · cases Number.readInteger (sign ++ cs.takeWhile Char.isDigit ++ fraction) <;> rfl
  · split <;> rfl

theorem head?_takeWhile_append {q : Char → Bool} {cs : List Char} (first : cs.head?.any q = true)
    (more : List Char) : (cs.takeWhile q ++ more).head?.any q = true := by
  cases cs with
  | nil => cases first
  | cons c cs =>
      have hFirst : q c = true := first
      rw [List.takeWhile_cons_of_pos hFirst]
      exact hFirst

theorem number_local {sign cs : List Char} {l : Lexeme} (number : Lexeme.number sign cs = .ok l)
    (alike : StopsAlike l.rest rest') : ∃ fraction,
      l.used = sign ++ (cs.takeWhile Char.isDigit ++ fraction) ∧
      Lexeme.number sign (cs.takeWhile Char.isDigit ++ fraction ++ rest') =
        .ok ⟨l.kind, l.used, rest'⟩ := by
  obtain ⟨fraction, behind, hSplit⟩ :
      ∃ fraction behind, splitFraction (cs.dropWhile Char.isDigit) = (fraction, behind) :=
    ⟨_, _, rfl⟩
  rw [number_eq hSplit] at number
  cases hKind : numberKind (sign ++ cs.takeWhile Char.isDigit) fraction with
  | error fault =>
      rw [hKind] at number
      cases number
  | ok kind =>
      rw [hKind] at number
      cases number
      have hDrop : cs.dropWhile Char.isDigit = fraction ++ behind := by
        rw [← splitFraction_append (cs.dropWhile Char.isDigit), hSplit]
      have hDigits : StopsAlike (cs.dropWhile Char.isDigit) (fraction ++ rest') := by
        rw [hDrop]
        exact alike.append fraction
      obtain ⟨hTake', hDrop'⟩ := hDigits.takeWhile_dropWhile (by decide)
      refine ⟨fraction, List.append_assoc .., ?_⟩
      rw [List.append_assoc, number_eq (hDrop' ▸ splitFraction_local hSplit alike), hTake', hKind]
      rfl

end Lexeme

theorem Text.Quoted.read_local {cs : List Char} {q : Quoted} (read : Quoted.read cs = some q)
    (rest' : List Char) : Quoted.read (q.used ++ rest') = some ⟨q.value, q.used, rest'⟩ := by
  fun_induction Quoted.read cs generalizing q with
  | case1 => cases read
  | case2 => cases read
  | case3 => cases read
  | case4 c rest hLine ih =>
      obtain ⟨p, hRead, rfl⟩ := Option.map_eq_some_iff.1 read
      have hRest := ih hRead
      cases hMeant : unescapeLetter? c <;> simp [Quoted.read, hLine, hRest, hMeant]
  | case5 =>
      cases read
      simp [Quoted.read]
  | case6 => cases read
  | case7 c rest hLast hPair hQuote hLine ih =>
      obtain ⟨p, hRead, rfl⟩ := Option.map_eq_some_iff.1 read
      have hRest := ih hRead
      have hBackslash : c ≠ '\\' := by
        intro h
        cases rest with
        | nil => exact hLast h rfl
        | cons d ds => exact hPair d ds h rfl
      simp [Quoted.read, hBackslash, hQuote, hLine, hRest]

namespace Lexeme

/-- A lexeme is read in the same way in front of every text with which it does not go on. -/
theorem next_local {c : Char} {cs rest' : List Char} {l : Lexeme} (next : next c cs = .ok l)
    (alike : StopsAlike l.rest rest') : ∃ used, l.used = c :: used ∧
      Lexeme.next c (used ++ rest') = .ok ⟨l.kind, l.used, rest'⟩ := by
  -- which lexeme it is depends on its first two characters
  have hMore : ∀ used, l.used = c :: used → StopsAlike cs (used ++ rest') := by
    intro used hUsed
    have hWhole := used_append_rest next
    rw [hUsed, List.cons_append] at hWhole
    rw [← (List.cons.inj hWhole).2]
    exact alike.append used
  revert next
  fun_cases Lexeme.next c cs
  case case1 hLine =>
    intro hNext
    cases hNext
    have hUsed : (lineComment (c :: cs)).used = c :: cs.takeWhile (· != '\n') := by
      simp [lineComment, hLine.1]
    have hHead : (cs.takeWhile (· != '\n') ++ rest').head? = some '/' := by
      obtain ⟨more, rfl⟩ := List.head?_eq_some_iff.1 hLine.2
      rfl
    refine ⟨_, hUsed, ?_⟩
    rw [Lexeme.next, if_pos ⟨hLine.1, hHead⟩, ← List.cons_append, ← hUsed, lineComment_local alike]
    rfl
  case case2 hLine hBlock inside behind hSplit =>
    intro hNext
    cases hNext
    have hUsed : '/' :: '*' :: inside = c :: '*' :: inside := by rw [hBlock.1]
    refine ⟨'*' :: inside, hUsed, ?_⟩
    rw [Lexeme.next, if_neg ((hMore _ hUsed).not_pair (by decide) hLine), if_pos ⟨hBlock.1, rfl⟩,
      List.cons_append, List.tail_cons, splitComment_local hSplit]
  case case4 hLine hBlock hBlank =>
    intro hNext
    cases hNext
    have hAlike := hMore [] rfl
    refine ⟨[], rfl, ?_⟩
    rw [Lexeme.next, if_neg (hAlike.not_pair (by decide) hLine),
      if_neg (hAlike.not_pair (by decide) hBlock), if_pos hBlank]
    rfl
  case case5 hLine hBlock hBlank hQuote q hRead =>
    intro hNext
    cases hNext
    have hAlike := hMore q.used rfl
    refine ⟨q.used, rfl, ?_⟩
    rw [Lexeme.next, if_neg (hAlike.not_pair (by decide) hLine),
      if_neg (hAlike.not_pair (by decide) hBlock), if_neg hBlank, if_pos hQuote,
      Text.Quoted.read_local hRead]
  case case7 hLine hBlock hBlank hQuote hDigit =>
    intro hRead
    obtain ⟨fraction, hUsed, hNumber⟩ := number_local hRead alike
    rw [List.takeWhile_cons_of_pos hDigit] at hUsed hNumber
    have hAlike := hMore _ hUsed
    refine ⟨_, hUsed, ?_⟩
    rw [Lexeme.next, if_neg (hAlike.not_pair (by decide) hLine),
      if_neg (hAlike.not_pair (by decide) hBlock), if_neg hBlank, if_neg hQuote, if_pos hDigit]
    exact hNumber
  case case8 hLine hBlock hBlank hQuote hDigit hMinus =>
    intro hRead
    obtain ⟨fraction, hUsed, hNumber⟩ := number_local hRead alike
    rw [List.singleton_append] at hUsed
    have hAlike := hMore _ hUsed
    have hHead : (cs.takeWhile Char.isDigit ++ fraction ++ rest').head?.any Char.isDigit = true := by
      rw [List.append_assoc]
      exact head?_takeWhile_append hMinus.2 _
    refine ⟨_, hUsed, ?_⟩
    rw [Lexeme.next, if_neg (hAlike.not_pair (by decide) hLine),
      if_neg (hAlike.not_pair (by decide) hBlock), if_neg hBlank, if_neg hQuote,
      if_neg hDigit, if_pos ⟨hMinus.1, hHead⟩, hNumber]
  case case9 hLine hBlock hBlank hQuote hDigit hMinus m hMark =>
    intro hNext
    cases hNext
    have hAlike := hMore [] rfl
    refine ⟨[], rfl, ?_⟩
    simp only [Lexeme.next, if_neg (hAlike.not_pair (by decide) hLine),
      if_neg (hAlike.not_pair (by decide) hBlock), if_neg hBlank, if_neg hQuote,
      if_neg hDigit, if_neg (hAlike.not_sign hMinus), hMark]
    rfl
  case case10 hLine hBlock hBlank hQuote hDigit hMinus hMark hWord =>
    intro hNext
    cases hNext
    have hAlike := hMore _ rfl
    obtain ⟨hTake, hDrop⟩ := alike.takeWhile_dropWhile (by decide)
    refine ⟨_, rfl, ?_⟩
    simp only [Lexeme.next, if_neg (hAlike.not_pair (by decide) hLine),
      if_neg (hAlike.not_pair (by decide) hBlock), if_neg hBlank, if_neg hQuote,
      if_neg hDigit, if_neg (hAlike.not_sign hMinus), hMark, if_pos hWord, hTake, hDrop]
  -- nothing is read in the other cases
  all_goals
    intro hRead
    cases hRead

end Lexeme

/-! ### At another place -/

namespace Token

variable {file : String} {p : Position}

/-- The lexer does not look at places. If every place is moved along with the characters that are
passed, the tokens are the same, each at its moved place, and so is what is reported. -/
theorem scanFrom_moved {move : Position → Position} {shift : Span → Span} {Placed : Position → Prop}
    (advance : ∀ p c, Placed p → Placed (p.advance c) ∧ (move p).advance c = move (p.advance c))
    (span : ∀ p, Placed p → shift ⟨file, p.line, p.column⟩ = ⟨file, (move p).line, (move p).column⟩)
    (placed : Placed p) (text : List Char) :
    scanFrom file (move p) text =
      ((scanFrom file p text).map (·.map fun t => { t with position := move t.position })).mapError
        fun d => { d with span := shift d.span } := by
  have hAfter : ∀ (used : List Char) (p : Position), Placed p →
      Placed (p.after used) ∧ (move p).after used = move (p.after used) := by
    intro used
    induction used with
    | nil => exact fun p placed => ⟨placed, rfl⟩
    | cons c used ih =>
        intro p placed
        obtain ⟨hPlaced, hMove⟩ := advance p c placed
        have hStep : ∀ q : Position, q.after (c :: used) = (q.advance c).after used := fun _ => rfl
        rw [hStep, hStep, hMove]
        exact ih _ hPlaced
  induction text using Lexeme.induct generalizing p with
  | nil =>
      rw [scanFrom, scanFrom]
      rfl
  | fault c cs fault hNext =>
      rw [scanFrom_cons_error hNext, scanFrom_cons_error hNext, ← span p placed]
      rfl
  | step c cs l hNext ih =>
      obtain ⟨hPlaced, hMove⟩ := hAfter l.used p placed
      rw [scanFrom_cons hNext, scanFrom_cons hNext, hMove, ih hPlaced]
      cases scanFrom file (p.after l.used) l.rest with
      | error d => rfl
      | ok tokens => cases l.kind <;> rfl

end Token

end TypedConfig
