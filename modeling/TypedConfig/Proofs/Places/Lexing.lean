import Mathlib.Data.List.Induction
import Mathlib.Data.String.Basic
import TypedConfig.Proofs.Places
/-!
The lexer keeps places: every token has the place of its first character, and what cannot be read
as a lexeme is reported where it stands. By induction on the text left, with the lexemes in front of
it as what has been cut off already.
-/
namespace TypedConfig

namespace Position

/-- The lines behind a text are those before it and one for each line feed. -/
theorem line_after (p : Position) (text : List Char) :
    (p.after text).line = p.line + text.count '\n' := by
  induction text generalizing p with
  | nil => rfl
  | cons c text ih =>
      rw [after, List.foldl_cons, ← after, ih, List.count_cons, advance]
      by_cases hLine : c = '\n'
      · simp [hLine]
        omega
      · simp [hLine]

/-- The offset behind a text counts the bytes of all its characters. -/
theorem offset_after (p : Position) (text : List Char) :
    (p.after text).offset = p.offset + String.utf8Len text := by
  induction text generalizing p with
  | nil => rfl
  | cons c text ih =>
      have hAdvance : (p.advance c).offset = p.offset + c.utf8Size := by
        rw [advance]
        split <;> rfl
      rw [after, List.foldl_cons, ← after, ih, hAdvance, String.utf8Len_cons]
      omega

theorem offset_start_after (text : List Char) :
    (start.after text).offset = String.utf8Len text := by
  rw [offset_after]
  exact Nat.zero_add _

/-- The column behind a text counts the characters of its last line. -/
theorem column_start_after (text : List Char) :
    (start.after text).column = (text.reverse.takeWhile (· != '\n')).length + 1 := by
  induction text using List.reverseRecOn with
  | nil => rfl
  | append_singleton text c ih =>
      have hAfter : start.after (text ++ [c]) = (start.after text).advance c := by simp [after]
      rw [hAfter, List.reverse_append, List.reverse_singleton, List.singleton_append,
        List.takeWhile_cons, advance]
      by_cases hLine : c = '\n'
      · simp [hLine]
      · simp [hLine, ih]

/-- The place that the lexer counts is the place behind the text it has passed. -/
theorem start_after_eq_behind (file : String) (before : List Char) :
    (⟨file, (start.after before).line, (start.after before).column⟩ : Span) =
      .behind file before := by
  rw [line_after, column_start_after, Span.behind, Nat.add_comm]
  rfl

end Position

namespace Token

variable {file source : String}

/-- What could not be read as a lexeme is where a diagnostic points. -/
def FailsIn (file source : String) (d : Diagnostic) : Prop :=
  ∃ fault, d.cause = .lexical fault ∧ Lexeme.FailsAt file source fault d.span

/-- Lexing a text whose front is already cut into lexemes. -/
theorem scanFrom_outcome {before rest : List Char} (cuts : Lexeme.Cuts source.toList before rest) :
    Outcome (FailsIn file source)
      (fun tokens => tokens ≠ [] ∧ ∀ t ∈ tokens, StartsAt file source (t.span file))
      (scanFrom file (Position.start.after before) rest) := by
  have hPlace := Position.start_after_eq_behind file
  induction rest using Lexeme.induct generalizing before with
  | nil =>
      rw [scanFrom]
      refine ⟨List.cons_ne_nil _ _, List.forall_mem_singleton.2 ?_⟩
      rw [span, hPlace]
      exact .endOfInput cuts
  | fault c cs fault hNext =>
      rw [scanFrom_cons_error hNext]
      refine ⟨fault, rfl, ?_⟩
      rw [hPlace]
      exact .intro cuts hNext
  | step c cs l hNext ih =>
      have hRest := ih (cuts.step hNext)
      rw [Position.after_append] at hRest
      rw [scanFrom_cons hNext]
      refine hRest.map fun tokens hTokens => ?_
      cases hKind : l.kind with
      -- blanks and comments make no token
      | none => exact hTokens
      | some kind =>
          refine ⟨List.cons_ne_nil _ _, List.forall_mem_cons.2 ⟨?_, hTokens.2⟩⟩
          rw [span, hPlace]
          exact .token cuts hNext hKind

/-- Every token of a text starts at its place, and there is at least one. -/
theorem scan_outcome : Outcome (FailsIn file source)
    (fun tokens => tokens ≠ [] ∧ ∀ t ∈ tokens, StartsAt file source (t.span file))
    (scan file source) :=
  scanFrom_outcome Lexeme.Cuts.start

end Token

end TypedConfig
