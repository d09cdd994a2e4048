import Mathlib.Data.List.Chain
import TypedConfig.Proofs.Lexing
import TypedConfig.Proofs.Lexing.Pieces
import TypedConfig.Proofs.Places.Lexing
import TypedConfig.Proofs.Printing.Reading
/-!
The lexer loses nothing. The pieces of a text are its slices between the offsets of tokens, and so
each slice is read alone as the one token with which it begins.
-/
namespace TypedConfig

/-- What stands between the ends of two fronts of a text. -/
theorem Text.slice_of_append {source : String} {front middle back : List Char}
    (whole : source.toList = front ++ middle ++ back) :
    slice source (Position.start.after front).offset (Position.start.after (front ++ middle)).offset =
      String.ofList middle := by
  have hSource : source = String.ofList (front ++ middle ++ back) := by
    rw [← whole, String.ofList_toList]
  rw [slice, Position.offset_start_after, Position.offset_start_after, String.utf8Len_append,
    hSource]
  exact String.extract_of_valid front middle back

/-- What stands in front of a place in a text. -/
theorem Text.slice_zero {source : String} {front back : List Char}
    (whole : source.toList = front ++ back) :
    slice source 0 (Position.start.after front).offset = String.ofList front := by
  have hWhole : source.toList = [] ++ front ++ back := whole
  exact slice_of_append hWhole

namespace Token

/-- The first token begins a piece of a text, and the second one stands behind that piece. -/
inductive Piece.Adjoins (text : List Char) : Token → Token → Prop where
  | intro {front back : List Char} {piece : Piece} {u : Token}
      (whole : text = front ++ piece.text ++ back) (nonempty : piece.text ≠ [])
      (alone : ∀ file p, scanFrom file p piece.text =
        .ok [⟨piece.kind, p⟩, ⟨.endOfInput, p.after piece.text⟩])
      (behind : u.position = Position.start.after (front ++ piece.text)) :
      Adjoins text ⟨piece.kind, Position.start.after front⟩ u

theorem Piece.Adjoins.offset_lt {text : List Char} {t u : Token} (adjoins : Adjoins text t u) :
    t.position.offset < u.position.offset := by
  cases adjoins with
  | @intro front back piece u whole nonempty alone behind =>
      have hSize : 0 < String.utf8Len piece.text :=
        Nat.pos_of_ne_zero fun h => nonempty (String.utf8Len_eq_zero.1 h)
      rw [behind, Position.after_append, (Position.start.after front).offset_after]
      exact Nat.lt_add_of_pos_right hSize

namespace Piece

variable {input : List Char} {pieces : List Piece}

/-- The tokens of pieces behind a front of a text, the end of input last. -/
def ended (front : List Char) (pieces : List Piece) : List Token :=
  tokens (Position.start.after front) pieces ++
    [⟨.endOfInput, Position.start.after (front ++ whole pieces)⟩]

theorem ended_cons (front : List Char) (piece : Piece) (pieces : List Piece) :
    ended front (piece :: pieces) =
      ⟨piece.kind, Position.start.after front⟩ :: ended (front ++ piece.text) pieces := by
  have hBehind : (Position.start.after front).after piece.text =
      Position.start.after (front ++ piece.text) := Position.after_append.symm
  rw [ended, ended, tokens, whole_cons, hBehind, List.append_assoc, List.cons_append]

theorem head?_ended (front : List Char) (pieces : List Piece) :
    ∀ t ∈ (ended front pieces).head?, t.position = Position.start.after front := by
  intro t head
  cases pieces with
  | nil =>
      cases head
      exact congrArg _ (List.append_nil front)
  | cons piece pieces =>
      cases head
      rfl

/-- From one token to the next there is one piece of the text. -/
theorem Cut.isChain (cut : Cut input pieces []) (front : List Char) :
    (ended front pieces).IsChain (Adjoins (front ++ input)) := by
  generalize hRest : ([] : List Char) = rest at cut
  induction cut generalizing front with
  | done => exact .singleton _
  | @more piece pieces input rest nonempty first others ih =>
      subst hRest
      have hTail := ih (front ++ piece.text) rfl
      rw [List.append_assoc] at hTail
      rw [ended_cons]
      apply List.IsChain.cons hTail
      intro u head
      exact .intro (List.append_assoc ..).symm nonempty first.alone (head?_ended _ _ u head)

/-- Every token stands behind some front of the text. -/
theorem exists_front (front : List Char) (pieces : List Piece) :
    ∀ t ∈ ended front pieces, ∃ before back, front ++ whole pieces = before ++ back ∧
      t.position = Position.start.after before := by
  induction pieces generalizing front with
  | nil =>
      intro t mem
      cases List.mem_singleton.1 mem
      exact ⟨front ++ [], [], (List.append_nil _).symm, rfl⟩
  | cons piece pieces ih =>
      intro t mem
      rw [ended_cons] at mem
      rw [whole_cons]
      rcases List.mem_cons.1 mem with rfl | mem
      · exact ⟨front, piece.text ++ whole pieces, rfl, rfl⟩
      · rw [← List.append_assoc]
        exact ih (front ++ piece.text) t mem

end Piece

variable {file source : String} {lead : List Char} {pieces : List Piece}

/-- The tokens of pieces that make up a text cover it. -/
theorem CutsInto.covers (cuts : CutsInto source.toList lead pieces [])
    {tokens : List Token} (scans : scan file source = .ok tokens) : Covers file source tokens := by
  have hText : source.toList = lead ++ Piece.whole pieces := by
    rw [cuts.whole, List.append_nil]
  have hTokens : tokens = Piece.ended lead pieces := by
    have hScan := cuts.scanFrom_eq file .start
    rw [scanFrom] at hScan
    exact Except.ok.inj (scans.symm.trans hScan)
  have hCut : Piece.Cut (Piece.whole pieces) pieces [] := by
    have hPieces := cuts.pieces
    rwa [List.append_nil] at hPieces
  have hChain : tokens.IsChain (Piece.Adjoins source.toList) := by
    rw [hTokens, hText]
    exact hCut.isChain lead
  have hFront : ∀ t ∈ tokens, ∃ front back, source.toList = front ++ back ∧
      t.position = Position.start.after front := by
    rw [hTokens, hText]
    exact Piece.exists_front lead pieces
  have hClosed := (scanFrom_sound scans).2
  apply Covers.mk hClosed
  case ends =>
    intro t last
    rw [hTokens, Piece.ended, List.getLast?_concat, ← hText] at last
    cases last
    rw [Position.offset_start_after, ← String.utf8ByteSize_ofList, String.ofList_toList]
  case increasing =>
    have hLess : (tokens.map fun t => t.position.offset).IsChain (· < ·) := by
      rw [List.isChain_map]
      apply hChain.imp
      intro t u adjoins
      exact adjoins.offset_lt
    exact hLess.pairwise
  case whole =>
    intro t mem
    obtain ⟨front, back, hWhole, hPosition⟩ := hFront t mem
    rw [hPosition, Text.slice_zero hWhole, String.utf8ByteSize_ofList, Position.offset_start_after]
  case placed =>
    intro t mem
    obtain ⟨front, back, hWhole, hPosition⟩ := hFront t mem
    rw [hPosition, Text.slice_zero hWhole, String.toList_ofList, span, hPosition,
      Position.start_after_eq_behind]
  case lead =>
    intro t head front slice
    rw [hTokens] at head
    rw [Piece.head?_ended _ _ t head, Text.slice_zero hText] at slice
    subst slice
    rw [scan, endOf, String.toList_ofList]
    exact cuts.lead.alone file .start
  case slices =>
    apply hChain.imp
    intro t u adjoins piece slice
    cases adjoins with
    | intro whole nonempty alone behind =>
        rw [behind, Text.slice_of_append whole] at slice
        subst slice
        rw [scan, String.toList_ofList, alone, endOf, String.toList_ofList]

end Token

end TypedConfig
