import TypedConfig.Proofs.Lexing
import TypedConfig.Proofs.Lexing.Locality
import TypedConfig.Proofs.Places.Lexing
/-!
Quoted text in front of other text. What a text is quoted to has no line feed and ends at its last
quote, whatever follows. The lexer takes it as one token and then reads what follows as it would be
read alone, with every place moved behind the quote.
-/
namespace TypedConfig

namespace Text

theorem newline_not_mem_escape (cs : List Char) : '\n' ∉ escape cs := by
  induction cs with
  | nil => exact List.not_mem_nil
  | cons c cs ih =>
      rw [escape]
      cases hLetter : escapeLetter? c with
      | some letter =>
          have hOther := (unescapeLetter?_of_escapeLetter? hLetter).1
          simp [ih, Ne.symm hOther]
      | none =>
          have hOther : c ≠ '\n' := by
            rintro rfl
            cases hLetter
          simp [ih, Ne.symm hOther]

/-- What a text is quoted to stands on one line. -/
theorem newline_not_mem_quote (cs : List Char) : '\n' ∉ quote cs := by
  simp [quote, newline_not_mem_escape]

end Text

/-! ### Places behind a place -/

/-- A position in a text as one of the whole, if the text begins at `origin` there. -/
def Position.movedTo (origin p : Position) : Position :=
  ⟨origin.line + (p.line - 1), if p.line = 1 then origin.column + (p.column - 1) else p.column,
    origin.offset + p.offset⟩

/-- A token of a text as one of the whole, if the text begins at `origin` there. -/
def Token.movedTo (origin : Position) (t : Token) : Token :=
  { t with position := origin.movedTo t.position }

/-- A place in a text as one of the whole, if the text begins at `origin` there. -/
def Span.movedTo (origin : Position) (s : Span) : Span :=
  ⟨s.file, origin.line + (s.line - 1),
    if s.line = 1 then origin.column + (s.column - 1) else s.column⟩

/-- A diagnostic about a text as one about the whole, if the text begins at `origin` there. -/
def Diagnostic.movedTo (origin : Position) (d : Diagnostic) : Diagnostic :=
  { d with span := d.span.movedTo origin }

namespace Position

/-- Lines and columns are counted from one. -/
def Counted (p : Position) : Prop := 1 ≤ p.line ∧ 1 ≤ p.column

theorem Counted.advance {p : Position} (counted : Counted p) (c : Char) (origin : Position) :
    Counted (p.advance c) ∧ (origin.movedTo p).advance c = origin.movedTo (p.advance c) := by
  obtain ⟨hLine, hColumn⟩ := counted
  by_cases hFeed : c = '\n'
  · subst hFeed
    refine ⟨⟨Nat.le_add_left 1 p.line, Nat.le_refl 1⟩, ?_⟩
    simp [Position.advance, movedTo, Nat.add_assoc]
    omega
  · refine ⟨by simp [Counted, Position.advance, hFeed, hLine], ?_⟩
    by_cases hFirst : p.line = 1
    · simp [Position.advance, movedTo, hFeed, hFirst, Nat.add_assoc]
      omega
    · simp [Position.advance, movedTo, hFeed, hFirst, Nat.add_assoc]

theorem movedTo_start (origin : Position) : origin.movedTo start = origin := rfl

/-- A run of characters on one line moves on by its length and by its bytes. -/
theorem after_of_one_line (p : Position) {text : List Char} (line : '\n' ∉ text) :
    p.after text = ⟨p.line, p.column + text.length, p.offset + String.utf8Len text⟩ := by
  induction text generalizing p with
  | nil => rfl
  | cons c text ih =>
      rw [List.mem_cons, not_or] at line
      have hStep : p.after (c :: text) = (p.advance c).after text := rfl
      rw [hStep, ih _ line.2, advance, if_neg (Ne.symm line.1), String.utf8Len_cons]
      simp
      omega

end Position

namespace Token

/-- A text is read from any place on as it would be read alone. -/
theorem scanFrom_eq_scan (file : String) (origin : Position) (text : List Char) :
    scanFrom file origin text =
      ((scan file (String.ofList text)).map (·.map (movedTo origin))).mapError
        (.movedTo origin) := by
  have hMoved := @scanFrom_moved file .start origin.movedTo (Span.movedTo origin) Position.Counted
    (fun p c counted => counted.advance c origin) (fun _ _ => rfl)
    ⟨Nat.le_refl 1, Nat.le_refl 1⟩ text
  rw [Position.movedTo_start] at hMoved
  rw [hMoved, scan, String.toList_ofList]
  rfl

/-- Quoting is undone by the lexer, whatever follows and wherever it stands. What a text is quoted
to has no line feed. It is read as one token, which is that text, and the lexer goes on right
behind the closing quote with what follows, which is read as it would be read alone, but further
on: its tokens or its diagnostic are at their places behind the quote. -/
theorem scan_quote (file : String) (p : Position) (s : String) (r : List Char) :
    '\n' ∉ Text.quote s.toList ∧
      p.after (Text.quote s.toList) =
        ⟨p.line, p.column + (Text.quote s.toList).length,
          p.offset + String.utf8Len (Text.quote s.toList)⟩ ∧
      scanFrom file p (Text.quote s.toList ++ r) =
        (scanFrom file (p.after (Text.quote s.toList)) r).map (⟨.quoted s, p⟩ :: ·) ∧
      scanFrom file (p.after (Text.quote s.toList)) r =
        ((scan file (String.ofList r)).map
          (·.map (movedTo (p.after (Text.quote s.toList))))).mapError
            (.movedTo (p.after (Text.quote s.toList))) := by
  have hLine := Text.newline_not_mem_quote s.toList
  refine ⟨hLine, p.after_of_one_line hLine, ?_, scanFrom_eq_scan file _ r⟩
  have hNext := Text.Quoted.next_quote s.toList r
  rw [String.ofList_toList] at hNext
  exact scanFrom_cons hNext

/-- A backslash in front of the end, a letter that makes an escape behind a backslash, and a line
feed are all read back, also in front of what cannot be read. -/
example : scan "main" (String.ofList (Text.quote "a\\n\n\\".toList) ++ "\"") =
    .error ⟨.lexical .unterminatedString, ⟨"main", 1, 11⟩⟩ := by
  decide +kernel

end Token

end TypedConfig
