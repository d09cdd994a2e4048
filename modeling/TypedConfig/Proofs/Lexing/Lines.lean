import Mathlib
import TypedConfig.Proofs.Lexing
import TypedConfig.Proofs.Lexing.Pieces
import TypedConfig.Proofs.Places.Lexing
/-!
Texts one below the other. A text that can be read as tokens ends in front of a line feed as it ends
in front of nothing, so the lexer passes it as if it stood alone. What follows is read as it would
be at the front of a file, with every place moved down.
-/
namespace TypedConfig

namespace Position

theorem below_advance (p : Position) (lines bytes : Nat) (c : Char) :
    (p.below lines bytes).advance c = (p.advance c).below lines bytes := by
  by_cases hLine : c = '\n' <;> simp [advance, below, hLine, Nat.add_right_comm]

/-- The line below a text begins at its first column, whatever the text is. -/
theorem start_after_line (text : List Char) :
    start.after (text ++ ['\n']) =
      start.below (text.count '\n' + 1) (String.utf8Len text + 1) := by
  have hAdvance : start.after (text ++ ['\n']) = (start.after text).advance '\n' := after_append
  have hSize : '\n'.utf8Size = 1 := rfl
  rw [hAdvance, advance, if_pos rfl, line_after, offset_start_after, Nat.add_assoc, hSize]
  simp [below, start]

end Position

namespace Token

/-- A text is read further down as at its own place. -/
theorem scanFrom_below (file : String) (lines bytes : Nat) (p : Position) (text : List Char) :
    scanFrom file (p.below lines bytes) text =
      ((scanFrom file p text).map (·.map (below lines bytes))).mapError (.below lines) := by
  let shift : Span → Span := fun s => { s with line := s.line + lines }
  exact @scanFrom_moved file p (.below lines bytes) shift (fun _ => True)
    (fun p c _ => ⟨trivial, p.below_advance lines bytes c⟩) (fun _ _ => rfl) trivial text

/-- A line feed ends a text that can be read as tokens, and adds no token to it. -/
theorem scan_line {file a : String} {tokens : List Token} (scans : scan file a = .ok tokens)
    (b : List Char) : scanFrom file .start (a.toList ++ '\n' :: b) =
      (scanFrom file (Position.start.after (a.toList ++ ['\n'])) b).map (tokens.dropLast ++ ·) := by
  have hLine : Lexeme.next '\n' b = .ok ⟨none, ['\n'], b⟩ := by
    simp [Lexeme.next, Text.isBlank]
  rw [scan] at scans
  rw [scanFrom_append scans (.newline [] b), scanFrom_cons hLine, ← Position.after_append]
  cases scanFrom file (Position.start.after (a.toList ++ ['\n'])) b <;> rfl

/-- A text that can be read as tokens may stand above another one. Its tokens come first, and the
other text is read as if it stood alone, but further down. -/
theorem scan_append_line {file a : String} {tokens : List Token} (scans : scan file a = .ok tokens)
    (b : String) : scan file (a ++ "\n" ++ b) =
      ((scan file b).map fun others => tokens.dropLast ++
        others.map (below (a.toList.count '\n' + 1) (a.utf8ByteSize + 1))).mapError
          (.below (a.toList.count '\n' + 1)) := by
  have hText : (a ++ "\n" ++ b).toList = a.toList ++ '\n' :: b.toList := by
    rw [String.toList_append, String.toList_append, List.append_assoc]
    rfl
  have hSize : String.utf8Len a.toList = a.utf8ByteSize := by
    rw [← String.utf8ByteSize_ofList, String.ofList_toList]
  rw [scan, hText, scan_line scans, Position.start_after_line, hSize, scanFrom_below, ← scan]
  cases scan file b <;> rfl

/-- A comment without end goes on up to the line feed, and not into the text below. -/
theorem scan_below_commented_line :
    scan "main" "\x7b // ö" = .ok [⟨.mark (.opening .brace), ⟨1, 1, 0⟩⟩, ⟨.endOfInput, ⟨1, 7, 7⟩⟩] ∧
      scan "main" ("\x7b // ö" ++ "\n" ++ "\x7d") = .ok [⟨.mark (.opening .brace), ⟨1, 1, 0⟩⟩,
        ⟨.mark (.closing .brace), ⟨2, 1, 8⟩⟩, ⟨.endOfInput, ⟨2, 2, 9⟩⟩] := by
  have hAbove : scan "main" "\x7b // ö" =
      .ok [⟨.mark (.opening .brace), ⟨1, 1, 0⟩⟩, ⟨.endOfInput, ⟨1, 7, 7⟩⟩] := by
    cbv
  have hBelow : scan "main" "\x7d" =
      .ok [⟨.mark (.closing .brace), ⟨1, 1, 0⟩⟩, ⟨.endOfInput, ⟨1, 2, 1⟩⟩] := by
    cbv
  apply And.intro hAbove
  rw [scan_append_line hAbove "\x7d", hBelow]
  rfl

end Token

end TypedConfig
