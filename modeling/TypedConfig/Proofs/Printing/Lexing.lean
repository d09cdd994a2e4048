import TypedConfig.Configuration.Printer
import TypedConfig.Proofs.Printing
import TypedConfig.Proofs.Printing.Numerals
import TypedConfig.Token.Lexer
/-!
Pieces of text that are read as known tokens. A piece is read the same wherever it stands, if the
text behind it does not go on with the last lexeme of the piece.
-/
namespace TypedConfig

section

variable {α : Type} {q : α → Bool} {xs rest : List α}

theorem takeWhile_append_stop (each : ∀ x ∈ xs, q x = true) (ends : ∀ y ∈ rest.head?, q y = false) :
    (xs ++ rest).takeWhile q = xs := by
  rw [List.takeWhile_append_of_pos each]
  cases rest with
  | nil => simp
  | cons y rest => simp [ends y rfl]

theorem dropWhile_append_stop (each : ∀ x ∈ xs, q x = true) (ends : ∀ y ∈ rest.head?, q y = false) :
    (xs ++ rest).dropWhile q = rest := by
  rw [List.dropWhile_append_of_pos each]
  cases rest with
  | nil => rfl
  | cons y rest => simp [ends y rfl]

end

/-- A run of one element at the front, and the rest. -/
theorem replicate_takeWhile_eq {α : Type} [DecidableEq α] (zero : α) (xs : List α) :
    List.replicate (xs.takeWhile (· == zero)).length zero ++ xs.dropWhile (· == zero) = xs := by
  have hZeros : ∀ x ∈ xs.takeWhile (· == zero), x = zero := by
    intro x mem
    simpa using List.all_eq_true.1 List.all_takeWhile x mem
  rw [← List.eq_replicate_of_mem hZeros, List.takeWhile_append_dropWhile]

theorem Text.unescapeLetter?_of_escapeLetter? {c letter : Char}
    (escaped : escapeLetter? c = some letter) :
    letter ≠ '\n' ∧ unescapeLetter? letter = some c := by
  rw [escapeLetter?] at escaped
  repeat' split at escaped
  all_goals cases escaped
  all_goals
    subst c
    exact ⟨by decide, rfl⟩

/-- Quoted text is read back, escapes included. -/
theorem Text.Quoted.read_escape (cs rest : List Char) :
    Quoted.read (escape cs ++ '"' :: rest) = some ⟨cs, escape cs ++ ['"'], rest⟩ := by
  induction cs with
  | nil => simp [escape, Quoted.read]
  | cons c cs ih =>
      cases hLetter : escapeLetter? c with
      | some letter =>
          have hBack := unescapeLetter?_of_escapeLetter? hLetter
          rw [escape, hLetter]
          show Quoted.read ('\\' :: letter :: (escape cs ++ '"' :: rest)) = _
          rw [Quoted.read, if_neg hBack.1, ih, hBack.2]
          rfl
      | none =>
          have hPlain : c ≠ '"' ∧ c ≠ '\\' ∧ c ≠ '\n' := by
            refine ⟨?_, ?_, ?_⟩ <;> rintro rfl <;> cases hLetter
          obtain ⟨hQuote, hBackslash, hLine⟩ := hPlain
          rw [escape, hLetter]
          show Quoted.read (c :: (escape cs ++ '"' :: rest)) = _
          rw [Quoted.read, if_neg hQuote, if_neg hLine, ih]
          · rfl
          · intro h
            exact absurd h hBackslash
          · intro _ _ h
            exact absurd h hBackslash

/-- Two texts are quoted alike only if they are the same. -/
theorem Text.quote_inj {cs ds : List Char} : quote cs = quote ds ↔ cs = ds := by
  constructor
  · intro h
    have hRead := Quoted.read_escape cs []
    rw [(List.cons.inj h).2, Quoted.read_escape] at hRead
    exact (congrArg Quoted.value (Option.some.inj hRead)).symm
  · rintro rfl
    rfl

theorem Text.Quoted.next_quote (cs rest : List Char) :
    Lexeme.next '"' (escape cs ++ ['"'] ++ rest) =
      .ok ⟨some (.quoted (String.ofList cs)), quote cs, rest⟩ := by
  have hRead := Quoted.read_escape cs rest
  have hBlank : isBlank '"' = false := by decide
  simp [Lexeme.next, hBlank, hRead, quote]

namespace Lexeme

variable {rest : List Char}

theorem splitFraction_eq_nil_iff {cs : List Char} :
    splitFraction cs = ([], cs) ↔ ∀ d ds, cs = '.' :: d :: ds → d.isDigit = false := by
  rw [splitFraction.eq_def]
  split
  · next d ds => by_cases hDigit : d.isDigit = true <;> simp [hDigit]
  · next hOther => simpa using fun d ds h => (hOther d ds h).elim

/-- Neither a digit nor a point with a digit behind it comes next, so an integer may end here. -/
structure EndsInteger (rest : List Char) : Prop where
  digit : ∀ c ∈ rest.head?, c.isDigit = false
  fraction : ∀ d ds, rest = '.' :: d :: ds → d.isDigit = false

/-- A numeral is the integer that it denotes if there is one, and no lexeme otherwise. -/
theorem number_numeral (m : Number.Numeral) (ends : EndsInteger rest) :
    number m.sign (m.digits ++ rest) =
      (Number.integer? m.value).elim (.error (.number (String.ofList m.text)))
        fun n => .ok ⟨some (.integer n), m.text, rest⟩ := by
  have hTake := takeWhile_append_stop m.isDigits.2 ends.digit
  have hDrop := dropWhile_append_stop m.isDigits.2 ends.digit
  have hWhole := splitFraction_eq_nil_iff.2 ends.fraction
  have hRead := m.readInteger_text
  rw [Number.Numeral.text] at hRead ⊢
  cases hInteger : Number.integer? m.value <;>
    simp [number, hTake, hDrop, hWhole, hRead, hInteger]

end Lexeme

namespace Token

/-- In front of `rest`, the text is read as the given tokens. -/
def Spells (file : String) (p : Position) (text rest : List Char) (used : List Token) : Prop :=
  ∀ tokens, scanFrom file (p.after text) rest = .ok tokens →
    scanFrom file p (text ++ rest) = .ok (used ++ tokens)

/-- No word and no number goes on in a text. -/
def Delimited (rest : List Char) : Prop :=
  ∀ c ∈ rest.head?, Lexeme.isWordPart c = false ∧ c ≠ '.'

variable {file : String} {p : Position} {text more rest : List Char}

namespace Spells

theorem nil : Spells file p [] rest [] := fun _ scan => scan

/-- Pieces that are read one after the other. -/
theorem append {used others : List Token} (first : Spells file p text (more ++ rest) used)
    (second : Spells file (p.after text) more rest others) :
    Spells file p (text ++ more) rest (used ++ others) := by
  intro tokens scan
  rw [Position.after_append] at scan
  rw [List.append_assoc, List.append_assoc]
  exact first _ (second _ scan)

/-- A piece that is one lexeme. -/
theorem of_next {c : Char} {cs : List Char} {kind? : Option Kind}
    (next : Lexeme.next c (cs ++ rest) = .ok ⟨kind?, c :: cs, rest⟩) :
    Spells file p (c :: cs) rest (kind?.toList.map (⟨·, p⟩)) := by
  intro tokens scan
  rw [List.cons_append, scanFrom_cons next, scan]
  rfl

theorem blank {c : Char} (blank : Text.isBlank c = true) (other : c ≠ '/') :
    Spells file p [c] rest [] := by
  have hNext : Lexeme.next c ([] ++ rest) = .ok ⟨none, [c], rest⟩ := by
    simp [Lexeme.next, blank, other]
  exact of_next hNext

theorem space : Spells file p [' '] rest [] := blank (by decide) (by decide)

theorem blanks {n : Nat} : Spells file p (List.replicate n ' ') rest [] := by
  induction n generalizing p with
  | zero => exact nil
  | succ n ih => exact space.append ih

theorem newline (depth : Nat) : Spells file p (Layout.newline depth) rest [] :=
  append (blank (by decide) (by decide)) blanks

end Spells

/-! ### Characters -/

theorem toNat_of_isWordStart {c : Char} (start : Lexeme.isWordStart c = true) :
    (65 ≤ c.toNat ∧ c.toNat ≤ 90) ∨ (97 ≤ c.toNat ∧ c.toNat ≤ 122) ∨ c.toNat = 95 := by
  change ((decide (c.val ≥ 'A'.val ∧ c.val ≤ 'Z'.val) ||
    (decide (c.val ≥ 'a'.val) && decide (c.val ≤ 'z'.val))) || c == '_') = true at start
  simp only [Bool.or_eq_true, Bool.and_eq_true, decide_eq_true_eq, ge_iff_le,
    UInt32.le_iff_toNat_le, Char.toNat_val, beq_iff_eq, ← Char.toNat_inj] at start
  have hChars : 'A'.toNat = 65 ∧ 'Z'.toNat = 90 ∧ 'a'.toNat = 97 ∧ 'z'.toNat = 122 ∧
      '_'.toNat = 95 := by decide
  omega

theorem toNat_of_isDigit {c : Char} (digit : c.isDigit = true) :
    48 ≤ c.toNat ∧ c.toNat ≤ 57 := Char.isDigit_iff_toNat.1 digit

theorem isBlank_eq_false_of_toNat {c : Char} (low : 33 ≤ c.toNat) (high : c.toNat ≤ 126) :
    Text.isBlank c = false := by
  simp [Text.isBlank]
  omega

theorem isWordPart_of_isDigit {c : Char} (digit : c.isDigit = true) :
    Lexeme.isWordPart c = true := by
  simp [Lexeme.isWordPart, Char.isAlphanum, digit]

/-- A character of a mark is that of one mark only. -/
theorem ofChar?_char (m : Mark) : Mark.ofChar? m.char = some m := by
  cases m with
  | opening b | closing b => cases b <;> rfl
  | _ => rfl

theorem ofChar?_eq_none {c : Char} (other : ∀ m : Mark, c ≠ m.char) : Mark.ofChar? c = none := by
  rw [Mark.ofChar?.eq_def]
  split
  · exact absurd rfl (other (.opening .brace))
  · exact absurd rfl (other (.closing .brace))
  · exact absurd rfl (other (.opening .square))
  · exact absurd rfl (other (.closing .square))
  · exact absurd rfl (other (.opening .round))
  · exact absurd rfl (other (.closing .round))
  · exact absurd rfl (other .colon)
  · exact absurd rfl (other .comma)
  · exact absurd rfl (other .dot)
  · exact absurd rfl (other .question)
  · exact absurd rfl (other .atSign)
  · exact absurd rfl (other .hash)
  · rfl

/-! ### Lexemes -/

namespace Spells

theorem mark (m : Mark) : Spells file p [m.char] rest [⟨.mark m, p⟩] := by
  have hNext : Lexeme.next m.char ([] ++ rest) = .ok ⟨some (.mark m), [m.char], rest⟩ := by
    have hOther : m.char ≠ '/' ∧ m.char ≠ '"' ∧ m.char ≠ '-' ∧ Text.isBlank m.char = false ∧
        m.char.isDigit = false := by
      cases m with
      | opening b | closing b => cases b <;> decide
      | _ => decide
    obtain ⟨hSlash, hQuote, hMinus, hBlank, hDigit⟩ := hOther
    simp [Lexeme.next, hSlash, hQuote, hMinus, hBlank, hDigit, ofChar?_char]
  exact of_next hNext

/-- A mark in front of a piece. -/
theorem mark_cons (m : Mark) {used : List Token} (behind : Spells file (p.after [m.char]) more rest used) :
    Spells file p (m.char :: more) rest (⟨.mark m, p⟩ :: used) :=
  append (mark m) behind

/-- A comma and a space. -/
theorem comma : Spells file p [',', ' '] rest [⟨.mark .comma, p⟩] :=
  mark_cons .comma space

/-- A word, if no other part of a word follows. -/
theorem word {word : String} (isWord : IsWord word)
    (ends : ∀ c ∈ rest.head?, Lexeme.isWordPart c = false) :
    Spells file p word.toList rest [⟨.word word, p⟩] := by
  obtain ⟨c, cs, hWord, hStart, hParts⟩ := isWord
  have hRange := toNat_of_isWordStart hStart
  have hTake := takeWhile_append_stop hParts ends
  have hDrop := dropWhile_append_stop hParts ends
  have hNext : Lexeme.next c (cs ++ rest) = .ok ⟨some (.word word), c :: cs, rest⟩ := by
    have hOther : ∀ d : Char, ¬ ((65 ≤ d.toNat ∧ d.toNat ≤ 90) ∨ (97 ≤ d.toNat ∧ d.toNat ≤ 122) ∨
        d.toNat = 95) → c ≠ d := by
      rintro d hd rfl
      exact hd hRange
    have hBlank : Text.isBlank c = false := isBlank_eq_false_of_toNat (by omega) (by omega)
    have hDigit : c.isDigit = false := by
      rw [Bool.eq_false_iff]
      intro h
      have := toNat_of_isDigit h
      omega
    have hMark : Mark.ofChar? c = none := by
      apply ofChar?_eq_none
      intro m
      apply hOther
      cases m with
      | opening b | closing b => cases b <;> decide
      | _ => decide
    have hSlash : c ≠ '/' := hOther _ (by decide)
    have hQuote : c ≠ '"' := hOther _ (by decide)
    have hMinus : c ≠ '-' := hOther _ (by decide)
    have hText : String.ofList (c :: cs) = word := by rw [← hWord, String.ofList_toList]
    simp [Lexeme.next, hSlash, hQuote, hMinus, hBlank, hDigit, hMark, hStart, hTake, hDrop, hText]
  rw [hWord]
  exact of_next hNext

theorem quoted (cs : List Char) :
    Spells file p (Text.quote cs) rest [⟨.quoted (String.ofList cs), p⟩] :=
  of_next (Text.Quoted.next_quote cs rest)

end Spells

/-! ### Numbers -/

/-- A number is met at its first digit, or at a minus sign before it. -/
theorem next_eq_number {sign ds : List Char} (sign_eq : sign = [] ∨ sign = ['-'])
    (isDigits : Number.IsDigits ds) (rest : List Char) : ∃ c cs, sign ++ ds = c :: cs ∧
      Lexeme.next c (cs ++ rest) = Lexeme.number sign (ds ++ rest) := by
  obtain ⟨hNonempty, hDigits⟩ := isDigits
  cases ds with
  | nil => exact absurd rfl hNonempty
  | cons d ds =>
      have hDigit := hDigits d List.mem_cons_self
      rcases sign_eq with rfl | rfl
      · refine ⟨d, ds, rfl, ?_⟩
        have hRange := toNat_of_isDigit hDigit
        have hBlank : Text.isBlank d = false := isBlank_eq_false_of_toNat (by omega) (by omega)
        have hSlash : d ≠ '/' := by
          rintro rfl
          exact absurd hDigit (by decide)
        have hQuote : d ≠ '"' := by
          rintro rfl
          exact absurd hDigit (by decide)
        simp [Lexeme.next, hSlash, hQuote, hBlank, hDigit]
      · refine ⟨'-', d :: ds, rfl, ?_⟩
        have hBlank : Text.isBlank '-' = false := by decide
        simp [Lexeme.next, hBlank, hDigit]

/-- A numeral is met as its lexeme, if it is one. -/
theorem next_numeral (m : Number.Numeral) (ends : Lexeme.EndsInteger rest) :
    ∃ c cs, m.text = c :: cs ∧ Lexeme.next c (cs ++ rest) =
      (Number.integer? m.value).elim (.error (.number (String.ofList m.text)))
        fun n => .ok ⟨some (.integer n), m.text, rest⟩ := by
  obtain ⟨c, cs, hHead, hNext⟩ := next_eq_number m.sign_cases m.isDigits rest
  exact ⟨c, cs, hHead, hNext.trans (Lexeme.number_numeral m ends)⟩

theorem Delimited.endsInteger (delimited : Delimited rest) : Lexeme.EndsInteger rest := by
  apply Lexeme.EndsInteger.mk
  · intro c mem
    rw [Bool.eq_false_iff]
    intro digit
    exact absurd (isWordPart_of_isDigit digit) (by simp [(delimited c mem).1])
  · rintro d ds rfl
    exact absurd rfl (delimited _ rfl).2

theorem splitFraction_digits {ds rest : List Char} (isDigits : Number.IsDigits ds)
    (ends : ∀ c ∈ rest.head?, c.isDigit = false) :
    Lexeme.splitFraction ('.' :: (ds ++ rest)) = ('.' :: ds, rest) := by
  obtain ⟨hNonempty, hDigits⟩ := isDigits
  cases ds with
  | nil => exact absurd rfl hNonempty
  | cons d ds =>
      have hRest : ∀ c ∈ ds, c.isDigit = true := fun c mem => hDigits c (List.mem_cons_of_mem _ mem)
      have hTake := takeWhile_append_stop hRest ends
      have hDrop := dropWhile_append_stop hRest ends
      simp [Lexeme.splitFraction, hDigits d List.mem_cons_self, hTake, hDrop]

namespace Spells

theorem integer (n : Int64) (delimited : Delimited rest) :
    Spells file p (Number.writeInteger n) rest [⟨.integer n, p⟩] := by
  obtain ⟨m, hText, hValue⟩ := Number.Numeral.exists_writeInteger n
  obtain ⟨c, cs, hHead, hNext⟩ := next_numeral m delimited.endsInteger
  rw [Number.integer?_eq_some_iff.2 hValue.symm, hHead] at hNext
  rw [← hText, hHead]
  exact of_next hNext

/-- A number with a fraction, if it is finite. -/
theorem fraction {sign whole part : List Char} {x : Number.Binary64}
    (sign_eq : sign = [] ∨ sign = ['-']) (isWhole : Number.IsDigits whole) (isPart : Number.IsDigits part)
    (reads : Number.Binary64.read (sign ++ whole ++ '.' :: part) = some x)
    (finite : x.isFinite = true) (delimited : Delimited rest) :
    Spells file p (sign ++ whole ++ '.' :: part) rest
      [⟨.fraction (String.ofList (sign ++ whole ++ '.' :: part)), p⟩] := by
  have hEnds := delimited.endsInteger.digit
  have hPoint : ∀ c ∈ ('.' :: (part ++ rest)).head?, c.isDigit = false := by
    intro c mem
    cases mem
    rfl
  have hNumber : Lexeme.number sign (whole ++ '.' :: (part ++ rest)) =
      .ok ⟨some (.fraction (String.ofList (sign ++ whole ++ '.' :: part))),
        sign ++ whole ++ '.' :: part, rest⟩ := by
    simp only [Lexeme.number, takeWhile_append_stop isWhole.2 hPoint,
      dropWhile_append_stop isWhole.2 hPoint, splitFraction_digits isPart hEnds, reads]
    simp [finite]
  obtain ⟨c, cs, hHead, hNext⟩ := next_eq_number sign_eq isWhole ('.' :: (part ++ rest))
  rw [hNumber, hHead] at hNext
  rw [hHead]
  have hNext : Lexeme.next c (cs ++ '.' :: part ++ rest) = .ok ⟨some (.fraction (String.ofList
      (c :: cs ++ '.' :: part))), c :: (cs ++ '.' :: part), rest⟩ := by
    rw [List.append_assoc]
    exact hNext
  exact of_next hNext

end Spells

end Token

end TypedConfig
