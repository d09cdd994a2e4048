import Mathlib
import TypedConfig.Proofs.Printing.Reading
import TypedConfig.Proofs.Progress.Documents
/-!
Progress. A run over tokens that end with the end of input gives what the parser gives, and nothing
that is read in it stands still, takes the end of input, or comes back to another depth. Without an
end of input a loop may go on for ever.
-/
namespace TypedConfig

open TypedConfig.Stepper TypedConfig.Stepper.Follows

variable {c : Cursor} {depth levels : Nat}

/-- A reading from a station ends, failed or not, at a station that it reaches, and has moved if
something was read. -/
def Stepper.Progresses {α : Type} (setting : Setting) (s : Station) (q : Stepper α) : Prop :=
  ∃ outcome s', q setting s = some (outcome, s') ∧ s.Reaches setting s' ∧
    ∀ a, outcome = .ok a → s.position < s'.position

theorem Stepper.Follows.progresses {α : Type} {setting : Setting} {s : Station} {q : Stepper α}
    {p : Parser α} (follows : ∀ c, Follows s.depth 1 c q p) (complete : setting.Complete)
    (within : s.position < setting.tokens.length) : Progresses setting s q := by
  obtain ⟨c, hStands⟩ := Station.exists_at within
  have hAgrees := follows c setting s complete hStands rfl
  unfold Progresses
  generalize q setting s = run, p c = outcome at hAgrees
  cases hAgrees with
  | ok reaches _ moved => exact ⟨_, _, rfl, reaches, fun _ _ => moved⟩
  | error reaches => exact ⟨_, _, rfl, reaches, fun _ found => nomatch found⟩

/-- What is read as a part of a document, and the rounds of the loops over such parts, with what was
read before them. The loops over directives and over declarations have no commas, and so these are
rounds themselves. -/
inductive Document.Part where
  | value
  | object (typeName : Option String)
  | entries
  | array
  | tuple
  | type
  | slots
  | fields
  | variants
  | declaration
  | directive
  | entryRound (before : List Entry)
  | valueRound
  | slotRound
  | fieldRound (before : List Field)
  | variantRound (before : List Variant)

namespace Document

/-- Whether a part belongs to a declaration, which is read inside of nothing else. -/
def Part.declared : Part → Bool
  | slots | fields | variants | declaration | slotRound | fieldRound _ | variantRound _ => true
  | _ => false

/-- How a part is read, with the given number of levels for the values and types in it. -/
def Part.stepper (levels : Nat) : Part → (α : Type) × Stepper α
  | value => ⟨_, Node.stepper levels⟩
  | object typeName => ⟨_, Form.objectStepper typeName (Node.stepper levels)⟩
  | entries => ⟨_, Entry.blockStepper (Node.stepper levels)⟩
  | array => ⟨_, block .square fun _ => Node.stepper levels⟩
  | tuple => ⟨_, Stepper.tuple (Node.stepper levels)⟩
  | type => ⟨_, TypeExpr.stepper levels⟩
  | slots => ⟨_, Stepper.tuple (Slot.stepper levels)⟩
  | fields => ⟨_, block .brace (Field.stepper levels)⟩
  | variants => ⟨_, Declaration.choiceStepper levels⟩
  | declaration => ⟨_, Declaration.stepper levels⟩
  | directive => ⟨_, Include.stepper⟩
  | entryRound before => ⟨_, round (Entry.stepper (Node.stepper levels) before)⟩
  | valueRound => ⟨_, round (Node.stepper levels)⟩
  | slotRound => ⟨_, round (Slot.stepper levels)⟩
  | fieldRound before => ⟨_, round (Field.stepper levels before)⟩
  | variantRound before => ⟨_, round (Variant.stepper levels before)⟩

theorem Part.stepper_follows (part : Part) (outside : part.declared → depth = 0)
    (enough : maxNesting - depth < levels) :
    ∃ p, ∀ c, Follows depth 1 c (part.stepper levels).2 p := by
  have hValue (c : Cursor) := Node.stepper_follows (c := c) enough
  cases part with
  | value => exact ⟨_, hValue⟩
  | object typeName => exact ⟨_, fun _ => Form.objectStepper_follows typeName hValue⟩
  | entries => exact ⟨_, fun _ => Entry.blockStepper_follows hValue⟩
  | array => exact ⟨_, fun _ => block fun _ => hValue⟩
  | tuple => exact ⟨_, fun _ => Follows.tuple hValue⟩
  | type => exact ⟨_, fun _ => TypeExpr.stepper_follows enough⟩
  | directive => exact ⟨_, fun _ => Include.stepper_follows⟩
  | entryRound before => exact ⟨_, fun _ => (Entry.stepper_follows hValue before).round⟩
  | valueRound => exact ⟨_, fun c => (hValue c).round⟩
  | slots =>
      obtain rfl := outside rfl
      exact ⟨_, fun _ => Follows.tuple fun _ => Slot.stepper_follows enough⟩
  | fields =>
      obtain rfl := outside rfl
      exact ⟨_, fun _ => block fun before _ => Field.stepper_follows enough before⟩
  | variants =>
      obtain rfl := outside rfl
      exact ⟨_, fun _ => Declaration.choiceStepper_follows enough⟩
  | declaration =>
      obtain rfl := outside rfl
      exact ⟨_, fun _ => Declaration.stepper_follows enough⟩
  | slotRound =>
      obtain rfl := outside rfl
      exact ⟨_, fun _ => (Slot.stepper_follows enough).round⟩
  | fieldRound before =>
      obtain rfl := outside rfl
      exact ⟨_, fun _ => (Field.stepper_follows enough before).round⟩
  | variantRound before =>
      obtain rfl := outside rfl
      exact ⟨_, fun _ => (Variant.stepper_follows enough before).round⟩

/-- A run over a document ends with what the parser gives. -/
theorem stepper_eq_ofTokens {setting : Setting} (complete : setting.Complete)
    (enough : maxNesting < levels) :
    ∃ s', Document.stepper levels setting .start =
        some (ofTokens setting.file setting.tokens, s') ∧ Station.start.Reaches setting s' := by
  have hWithin : Station.start.position < setting.tokens.length := by
    have hEnded := complete.ended
    rw [Token.lastKind?, Option.map_eq_some_iff] at hEnded
    obtain ⟨t, hLast, -⟩ := hEnded
    exact List.length_pos_of_mem (List.mem_of_getLast? hLast)
  obtain ⟨c, hStands⟩ := Station.exists_at hWithin
  have hTokens : setting.tokens = c.current :: c.later := hStands.tokens.symm
  have hRun : ofTokens setting.file setting.tokens = (Document.parser c).map Prod.fst := by
    rw [hTokens, ← hStands.file]
    rfl
  have hAgrees := Document.stepper_follows enough setting .start complete hStands rfl
  rw [hRun]
  generalize Document.stepper levels setting .start = run, Document.parser c = outcome at hAgrees
  cases hAgrees with
  | ok reaches _ _ => exact ⟨_, rfl, reaches⟩
  | error reaches => exact ⟨_, rfl, reaches⟩

/-- The tokens of a text end with the end of input, which stands nowhere else in them. Over any
tokens that end so, a reading in steps ends, with what the parser gives. It takes the tokens up to
the station where it ends, stays within them, and takes no end of input. All parts do the same, at
any depth at which they are read; they come back to that depth, and have moved if they have read
something, and so has every round of a loop. -/
theorem stepper_progresses :
    (∀ file source tokens, Token.scan file source = .ok tokens → Token.Closed tokens) ∧
      ∀ setting : Setting, setting.Complete →
        (∀ levels, maxNesting < levels →
          ∃ s', Document.stepper levels setting .start =
              some (ofTokens setting.file setting.tokens, s') ∧
            Station.start.Reaches setting s') ∧
        ∀ (part : Part) (s : Station) (levels : Nat), s.position < setting.tokens.length →
          (part.declared → s.depth = 0) → maxNesting - s.depth < levels →
          Progresses setting s (part.stepper levels).2 :=
  ⟨fun _ _ _ scans => (Token.scanFrom_sound scans).2, fun _ complete =>
    ⟨fun _ enough => stepper_eq_ofTokens complete enough, fun part _ _ within outside enough =>
      have ⟨_, hFollows⟩ := part.stepper_follows outside enough
      progresses hFollows complete within⟩⟩

/-- The steps over a document of one entry, and those over the value in it. -/
theorem stepper_progresses_over_pair :
    let tokens : List Token :=
      [⟨.mark (.opening .brace), ⟨1, 1, 0⟩⟩, ⟨.word "a", ⟨1, 3, 2⟩⟩, ⟨.mark .colon, ⟨1, 4, 3⟩⟩,
        ⟨.integer 1, ⟨1, 6, 5⟩⟩, ⟨.mark (.closing .brace), ⟨1, 8, 7⟩⟩, ⟨.endOfInput, ⟨1, 9, 8⟩⟩]
    let setting : Setting := ⟨"main", tokens, 6⟩
    Token.scan "main" "{ a: 1 }" = .ok tokens ∧ Token.Closed tokens ∧ setting.Complete ∧
      (∃ s', Document.stepper 129 setting .start = some (ofTokens "main" tokens, s') ∧
        Station.start.Reaches setting s') ∧
      Progresses setting ⟨3, 1, []⟩ (Node.stepper 128) := by
  intro tokens setting
  have hScan : Token.scan "main" "{ a: 1 }" = .ok tokens := by cbv
  have hComplete : setting.Complete := ⟨rfl, by decide⟩
  obtain ⟨hRun, hParts⟩ := stepper_progresses.2 setting hComplete
  exact ⟨hScan, stepper_progresses.1 _ _ _ hScan, hComplete, hRun 129 (by decide),
    hParts .value ⟨3, 1, []⟩ 128 (by decide) (by simp [Part.declared]) (by decide)⟩

/-! ### Tokens without an end -/

section

variable {setting : Setting} {s : Station} {n : Int64}

/-- An integer that is the last token is read, but it stays at hand. -/
theorem node_apply_of_last (stands : s.At setting c)
    (last : s.position + 1 = setting.tokens.length) (integer : c.kind = .integer n)
    (room : s.depth < maxNesting) : Node.stepper (levels + 1) setting s =
      some (.ok ⟨.integer n, c.span⟩, { s with taken := s.taken ++ [c.current] }) := by
  have hInner : Station.At setting { s with depth := s.depth + 1 } c := ⟨stands.file, stands.tokens⟩
  have hAdvance := advance_apply_of_last hInner last
  rw [Node.stepper, Stepper.nested, if_neg (by omega), here_bind hInner, bind_apply, Form.stepper,
    kind_bind hInner, integer]
  simp only [bind_apply, hAdvance]
  rfl

/-- Without an end of input, an array may go on for ever: its last item is read again and again. -/
theorem items_eq_none_of_last {t : Token} (last : setting.tokens.getLast? = some t)
    (integer : t.kind = .integer n) (opened : Span) (rounds : Nat) (before : List Node)
    (stands : s.position + 1 = setting.tokens.length) (room : s.depth < maxNesting) :
    items .square opened (fun _ => Node.stepper levels) rounds before setting s = none := by
  induction rounds generalizing s before with
  | zero => rfl
  | succ rounds ih =>
      have hWithin : s.position < setting.tokens.length := by omega
      obtain ⟨c, hStands⟩ := Station.exists_at hWithin
      have hKind : c.kind = .integer n := by
        have hCurrent := hStands.current
        rw [show s.position = setting.tokens.length - 1 by omega, ← List.getLast?_eq_getElem?,
          last] at hCurrent
        rw [← integer, Option.some.inj hCurrent, Cursor.kind]
      rw [items, bind_apply, atClosing_apply hStands, Parser.DoAlike.atClosing_eq, hKind]
      show (Stepper.round (Node.stepper levels) >>= _) setting s = none
      rw [bind_apply, Stepper.round, bind_apply]
      cases levels with
      | zero => rfl
      | succ levels =>
          have hComma : c.kind ≠ .mark .comma := by simp [hKind]
          have hLater : Station.At setting { s with taken := s.taken ++ [c.current] } c :=
            ⟨hStands.file, hStands.tokens⟩
          rw [node_apply_of_last hStands stands hKind room]
          simp only [bind_apply, optionalMark_apply_of_ne hLater hComma, pure_apply]
          rw [ih (s := { s with taken := s.taken ++ [c.current] }) _ stands room]

end

end Document

end TypedConfig
