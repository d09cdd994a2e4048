import TypedConfig.Token.Lexeme
/-!
Reading a source text as tokens: one lexeme after the other is taken from its front, and those that
are tokens are kept.
-/
namespace TypedConfig

namespace Token

/-- The tokens of a text that starts at a position, the end of input last. -/
def scanFrom (file : String) (p : Position) : List Char → Except Diagnostic (List Token)
  | [] => .ok [⟨.endOfInput, p⟩]
  | c :: cs =>
    match h : Lexeme.next c cs with
    | .error fault => .error ⟨.lexical fault, ⟨file, p.line, p.column⟩⟩
    | .ok l =>
      have := Lexeme.rest_length_lt h
      match l.kind with
      | none => scanFrom file (p.after l.used) l.rest
      | some kind => (scanFrom file (p.after l.used) l.rest).map (⟨kind, p⟩ :: ·)
termination_by cs => cs.length
decreasing_by all_goals assumption

variable {file : String} {p : Position}

/-- What is left of a text behind its first lexeme is scanned alone. -/
theorem scanFrom_cons {c : Char} {cs : List Char} {l : Lexeme} (next : Lexeme.next c cs = .ok l) :
    scanFrom file p (c :: cs) = (scanFrom file (p.after l.used) l.rest).map
      (l.kind.toList.map (⟨·, p⟩) ++ ·) := by
  rw [scanFrom]
  split
  · next fault hNext =>
    rw [next] at hNext
    cases hNext
  · next l' hNext =>
    rw [next] at hNext
    cases hNext
    cases l.kind with
    | none => cases scanFrom file (p.after l.used) l.rest <;> rfl
    | some kind => rfl

theorem scanFrom_cons_error {c : Char} {cs : List Char} {fault : LexFault}
    (next : Lexeme.next c cs = .error fault) :
    scanFrom file p (c :: cs) = .error ⟨.lexical fault, ⟨file, p.line, p.column⟩⟩ := by
  rw [scanFrom]
  split
  · next fault' hNext =>
    rw [next] at hNext
    cases hNext
    rfl
  · next l hNext =>
    rw [next] at hNext
    cases hNext

/-- The tokens of a source text, the end of input last. -/
def scan (file source : String) : Except Diagnostic (List Token) :=
  scanFrom file .start source.toList

end Token

end TypedConfig
