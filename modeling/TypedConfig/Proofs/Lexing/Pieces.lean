import TypedConfig.Proofs.Lexing.Locality
/-!
A text cut in front of each of its tokens. What stands in front of the first token has no token at
all, and each piece has the token that it begins with and no other one. Pieces are read in the same
way wherever they stand and whatever follows them, unless it goes on with their last lexeme.
-/
namespace TypedConfig.Token

open Lexeme

/-- The text begins with the given token, if one is given, and has no other one. It is read so at
any place, in front of the given text and of all others that its last lexeme does not go on with. -/
def Fills (kind? : Option Kind) (text rest : List Char) : Prop :=
  ∀ rest', StopsAlike rest rest' → ∀ file p, scanFrom file p (text ++ rest') =
    (scanFrom file (p.after text) rest').map (kind?.toList.map (⟨·, p⟩) ++ ·)

namespace Fills

variable {kind? : Option Kind} {text more rest rest' : List Char}

theorem empty (rest : List Char) : Fills none [] rest := by
  intro rest' _ file p
  show scanFrom file p rest' = (scanFrom file p rest').map ([] ++ ·)
  cases scanFrom file p rest' <;> rfl

theorem lexeme {c : Char} {cs : List Char} {l : Lexeme} (next : Lexeme.next c cs = .ok l) :
    Fills l.kind l.used l.rest := by
  intro rest' alike file p
  obtain ⟨used, hUsed, hNext⟩ := next_local next alike
  rw [hUsed, List.cons_append, scanFrom_cons hNext, hUsed]

/-- Blanks and comments behind a piece belong to it. -/
theorem append (first : Fills kind? text (more ++ rest)) (second : Fills none more rest) :
    Fills kind? (text ++ more) rest := by
  intro rest' alike file p
  rw [List.append_assoc, first (more ++ rest') (alike.append more), second rest' alike,
    Position.after_append]
  cases scanFrom file ((p.after text).after more) rest' <;> rfl

theorem stops (fills : Fills kind? text rest) (alike : StopsAlike rest rest') :
    Fills kind? text rest' :=
  fun rest'' alike' => fills rest'' (alike.trans alike')

/-- A piece is read alone as its token and the end of input. -/
theorem alone (fills : Fills kind? text rest) (file : String) (p : Position) :
    scanFrom file p text = .ok (kind?.toList.map (⟨·, p⟩) ++ [⟨.endOfInput, p.after text⟩]) := by
  have hScan := fills [] (.nil rest) file p
  rw [List.append_nil, scanFrom] at hScan
  exact hScan

end Fills

/-- A token with the text from its first character to the next token. -/
structure Piece where
  kind : Kind
  text : List Char

namespace Piece

/-- The text of some pieces. -/
def whole (pieces : List Piece) : List Char := pieces.flatMap text

theorem whole_cons (piece : Piece) (pieces : List Piece) :
    whole (piece :: pieces) = piece.text ++ whole pieces := List.flatMap_cons

/-- The tokens of pieces that stand one behind the other from a position on. -/
def tokens (p : Position) : List Piece → List Token
  | [] => []
  | piece :: pieces => ⟨piece.kind, p⟩ :: tokens (p.after piece.text) pieces

/-- A text consists of pieces and the given rest. -/
inductive Cut : List Char → List Piece → List Char → Prop where
  | done {rest : List Char} : Cut rest [] rest
  | more {piece : Piece} {pieces : List Piece} {input rest : List Char} (nonempty : piece.text ≠ [])
      (first : Fills (some piece.kind) piece.text input) (others : Cut input pieces rest) :
      Cut (piece.text ++ input) (piece :: pieces) rest

namespace Cut

variable {text rest rest' : List Char} {pieces : List Piece}

theorem eq_append (cut : Cut text pieces rest) : text = whole pieces ++ rest := by
  induction cut with
  | done => rfl
  | more _ _ _ ih => rw [ih, whole_cons, List.append_assoc]

/-- The rest may be exchanged for a text that does not go on with the last piece. -/
theorem stops (cut : Cut text pieces rest) (alike : StopsAlike rest rest') :
    Cut (whole pieces ++ rest') pieces rest' := by
  induction cut with
  | done => exact .done
  | @more piece pieces input rest nonempty first others ih =>
      rw [whole_cons, List.append_assoc]
      rw [others.eq_append] at first
      exact .more nonempty (first.stops (alike.append _)) (ih alike)

theorem scanFrom_eq (cut : Cut text pieces rest) (file : String) (p : Position) :
    scanFrom file p text =
      (scanFrom file (p.after (whole pieces)) rest).map (tokens p pieces ++ ·) := by
  induction cut generalizing p with
  | done => exact Fills.empty _ _ (.refl _) file p
  | @more piece pieces input rest nonempty first others ih =>
      rw [first input (.refl _), ih, whole_cons, Position.after_append]
      cases scanFrom file ((p.after piece.text).after (whole pieces)) rest <;> rfl

end Cut

end Piece

/-- A text is cut in front of each of its tokens, up to a rest. -/
structure CutsInto (text lead : List Char) (pieces : List Piece) (rest : List Char) : Prop where
  whole : text = lead ++ (Piece.whole pieces ++ rest)
  lead : Fills none lead (Piece.whole pieces ++ rest)
  pieces : Piece.Cut (Piece.whole pieces ++ rest) pieces rest

namespace CutsInto

variable {text lead rest rest' : List Char} {pieces : List Piece}

theorem stops (cuts : CutsInto text lead pieces rest) (alike : StopsAlike rest rest') :
    CutsInto (lead ++ (Piece.whole pieces ++ rest')) lead pieces rest' :=
  ⟨rfl, cuts.lead.stops (alike.append _), cuts.pieces.stops alike⟩

theorem scanFrom_eq (cuts : CutsInto text lead pieces rest) (file : String) (p : Position) :
    scanFrom file p text =
      (scanFrom file (p.after (lead ++ Piece.whole pieces)) rest).map
        (Piece.tokens (p.after lead) pieces ++ ·) := by
  rw [cuts.whole, cuts.lead _ (.refl _), cuts.pieces.scanFrom_eq, Position.after_append]
  cases scanFrom file ((p.after lead).after (Piece.whole pieces)) rest <;> rfl

end CutsInto

/-- Every text can be cut up to where it ends, or up to what is no lexeme. -/
theorem exists_cutsInto (text : List Char) : ∃ lead pieces rest, CutsInto text lead pieces rest ∧
    (rest = [] ∨ ∃ c cs fault, rest = c :: cs ∧ Lexeme.next c cs = .error fault) := by
  induction text using Lexeme.induct with
  | nil => exact ⟨[], [], [], ⟨rfl, .empty _, .done⟩, .inl rfl⟩
  | fault c cs fault hNext =>
      exact ⟨[], [], c :: cs, ⟨rfl, .empty _, .done⟩, .inr ⟨c, cs, fault, rfl, hNext⟩⟩
  | step c cs l hNext ih =>
      obtain ⟨lead, pieces, rest, hCuts, hEnds⟩ := ih
      have hFills := Fills.lexeme hNext
      rw [hCuts.whole] at hFills
      have hFirst := hFills.append hCuts.lead
      have hText : c :: cs = l.used ++ lead ++ (Piece.whole pieces ++ rest) := by
        rw [← used_append_rest hNext, hCuts.whole, List.append_assoc]
      -- a lexeme without a token goes to the lead, and one with a token takes the lead
      cases hKind : l.kind with
      | none =>
          rw [hKind] at hFirst
          exact ⟨l.used ++ lead, pieces, rest, ⟨hText, hFirst, hCuts.pieces⟩, hEnds⟩
      | some kind =>
          rw [hKind] at hFirst
          let piece : Piece := ⟨kind, l.used ++ lead⟩
          have hNonempty : piece.text ≠ [] :=
            List.append_ne_nil_of_left_ne_nil (used_ne_nil hNext) lead
          have hCut : Piece.Cut (piece.text ++ (Piece.whole pieces ++ rest))
              (piece :: pieces) rest := .more hNonempty hFirst hCuts.pieces
          rw [hCut.eq_append] at hCut
          refine ⟨[], piece :: pieces, rest, ⟨?_, .empty _, hCut⟩, hEnds⟩
          rw [hText, List.nil_append, Piece.whole_cons, ← List.append_assoc]

/-- A text that can be read as tokens up to its end is passed in the same way in front of another
text that does not go on with it. -/
theorem scanFrom_append {file : String} {p : Position} {text rest : List Char}
    {tokens : List Token} (scans : scanFrom file p text = .ok tokens)
    (alike : StopsAlike [] rest) : scanFrom file p (text ++ rest) =
      (scanFrom file (p.after text) rest).map (tokens.dropLast ++ ·) := by
  obtain ⟨lead, pieces, left, hCuts, hEnds⟩ := exists_cutsInto text
  have hScan := hCuts.scanFrom_eq file p
  rw [scans] at hScan
  rcases hEnds with rfl | ⟨c, cs, fault, rfl, hNext⟩
  · have hText : text = lead ++ Piece.whole pieces := by
      rw [hCuts.whole, List.append_nil]
    have hTokens : tokens.dropLast = Piece.tokens (p.after lead) pieces := by
      rw [scanFrom] at hScan
      rw [Except.ok.inj hScan, List.dropLast_concat]
    have hBoth := (hCuts.stops alike).scanFrom_eq file p
    rw [← List.append_assoc, ← hText] at hBoth
    rw [hBoth, hTokens]
  · rw [scanFrom_cons_error hNext] at hScan
    cases hScan

end TypedConfig.Token
