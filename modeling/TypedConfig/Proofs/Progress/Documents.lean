import TypedConfig.Proofs.Comparison.Reading
import TypedConfig.Proofs.Progress.Loops
/-!
Documents in steps. Every stepper of a construct follows its parser and moves if it reads something.
Values and types are followed at every depth, and with as many levels as are left at it; the depth
of what surrounds them does not change. Declarations are read outside of everything else.
-/
namespace TypedConfig

open TypedConfig.Stepper TypedConfig.Stepper.Follows

variable {c : Cursor} {depth levels : Nat}

/-! ### Types and declarations -/

/-- By induction on the levels: one level deeper there is one fewer to go, for the stepper as well
as for the parser. -/
theorem TypeExpr.stepper_follows (enough : maxNesting - depth < levels) :
    Follows depth 1 c (TypeExpr.stepper levels) (TypeExpr.parserAt (maxNesting - depth)) := by
  induction levels generalizing depth c with
  | zero => omega
  | succ levels ih =>
      by_cases hRoom : depth < maxNesting
      · have hDeeper : maxNesting - depth = maxNesting - (depth + 1) + 1 := by omega
        rw [hDeeper]
        refine nested hRoom (kind ?_)
        cases hKind : c.kind with
        | word text => exact advance (by simp [hKind]) pure
        | mark m =>
            cases m with
            | opening b =>
                cases b with
                | square =>
                    refine here (advance (by simp [hKind]) ?_)
                    refine (standing (ih (by omega))).bind fun item c' => ?_
                    exact atClosing (fun hClosing => standing (advance (by simp [hClosing]) pure))
                      unexpected
                | _ => exact unexpected
            | _ => exact unexpected
        | _ => exact unexpected
      · have hFull : maxNesting - depth = 0 := by omega
        rw [hFull]
        exact nested_tooDeep (by omega)

theorem Slot.stepper_follows (enough : maxNesting < levels) :
    Follows 0 1 c (Slot.stepper levels) Slot.parser :=
  here ((TypeExpr.stepper_follows enough).bind fun _ _ => pure)

theorem Field.stepper_follows (enough : maxNesting < levels) (before : List Field) :
    Follows 0 1 c (Field.stepper levels before) (Field.parser before) := by
  refine here (word.bind fun name _ => optionalMark.bind fun optional _ => ?_)
  refine (standing mark).bind fun _ _ => ?_
  refine (standing (TypeExpr.stepper_follows enough)).bind fun type _ => ?_
  exact ite (fun _ => fail) fun _ => pure

theorem Variant.shapeStepper_follows (enough : maxNesting < levels) :
    Follows 0 0 c (Variant.shapeStepper levels) Variant.shapeParser := by
  refine kind ?_
  cases c.kind with
  | mark m =>
      cases m with
      | opening b =>
          cases b with
          | round =>
              exact (standing (tuple fun _ => Slot.stepper_follows enough)).bind fun _ _ => pure
          | brace =>
              exact (standing (block fun before _ => Field.stepper_follows enough before)).bind
                fun _ _ => pure
          | square => exact pure
      | _ => exact pure
  | _ => exact pure

theorem Variant.stepper_follows (enough : maxNesting < levels) (before : List Variant) :
    Follows 0 1 c (Variant.stepper levels before) (Variant.parser before) := by
  refine here (word.bind fun name _ => ?_)
  refine (Variant.shapeStepper_follows enough).bind fun shape _ => ?_
  exact ite (fun _ => fail) fun _ => pure

theorem Declaration.choiceStepper_follows (enough : maxNesting < levels) :
    Follows 0 1 c (Declaration.choiceStepper levels) Declaration.choiceParser :=
  here (mark.bind fun _ _ => nonempty c.span .enumVariant fun before _ =>
    Variant.stepper_follows enough before)

theorem Declaration.stepper_follows (enough : maxNesting < levels) :
    Follows 0 1 c (Declaration.stepper levels) Declaration.parser := by
  refine here (mark.bind fun _ c' => kind ?_)
  by_cases hEnum : c'.kind = .word "enum"
  · rw [hEnum]
    refine standing (advance (by simp [hEnum]) ((standing word).bind fun name _ => ?_))
    exact (standing (Declaration.choiceStepper_follows enough)).bind fun _ _ => pure
  by_cases hType : c'.kind = .word "type"
  · rw [hType]
    refine standing (advance (by simp [hType]) ((standing word).bind fun name _ => ?_))
    exact (standing (block fun before _ => Field.stepper_follows enough before)).bind
      fun _ _ => pure
  -- another token is unexpected for both
  repeat' split
  all_goals first | contradiction | exact unexpected

theorem Include.stepper_follows : Follows depth 1 c Include.stepper Include.parser := by
  refine here (mark.bind fun _ c' => kind ?_)
  by_cases hWord : c'.kind = .word "include"
  · rw [hWord]
    exact standing (advance (by simp [hWord]) ((standing quoted).bind fun _ _ => pure))
  repeat' split
  all_goals first | contradiction | exact unexpected

/-! ### Values -/

section

variable {value : Stepper Node} {value' : Parser Node}

theorem Entry.stepper_follows (follows : ∀ c, Follows depth 1 c value value')
    (before : List Entry) : Follows depth 1 c (Entry.stepper value before)
      (Entry.parser value' before) := by
  refine here (kind ?_)
  cases hKind : c.kind with
  | word key =>
      refine advance (by simp [hKind]) ((standing mark).bind fun _ _ => ?_)
      refine (standing (follows _)).bind fun node _ => ?_
      exact ite (fun _ => fail) fun _ => pure
  | _ => exact unexpected

theorem Entry.blockStepper_follows (follows : ∀ c, Follows depth 1 c value value') :
    Follows depth 1 c (Entry.blockStepper value) (Entry.blockParser value') :=
  block fun before _ => Entry.stepper_follows follows before

namespace Form

theorem objectStepper_follows (typeName : Option String)
    (follows : ∀ c, Follows depth 1 c value value') :
    Follows depth 1 c (objectStepper typeName value) (objectParser typeName value') :=
  here ((Entry.blockStepper_follows follows).bind fun _ _ => pure)

/-- The two tokens in the parentheses are taken once both are known. -/
theorem extendedStepper_follows (extended : Extended) (inside : c.kind ≠ .endOfInput) :
    Follows depth 1 c (extendedStepper extended) (extendedParser extended) := by
  refine advance inside ((standing mark).bind fun _ c' => kind (nextKind ?_))
  cases hKind : c'.kind with
  | quoted raw =>
      cases hNext : c'.nextKind with
      | mark m =>
          cases m with
          | closing b =>
              cases b with
              | round =>
                  have hBehind : c'.advance.kind ≠ .endOfInput := by
                    simp [Cursor.kind_advance, hNext]
                  exact standing (advance (by simp [hKind]) (standing (advance hBehind pure)))
              | _ => exact here fail
          | _ => exact here fail
      | _ => exact here fail
  | _ => exact here fail

theorem payloadStepper_follows (follows : ∀ c, Follows depth 1 c value value') :
    Follows depth 0 c (payloadStepper value) (payloadParser value') := by
  refine kind ?_
  cases c.kind with
  | mark m =>
      cases m with
      | opening b =>
          cases b with
          | brace => exact (standing (Entry.blockStepper_follows follows)).bind fun _ _ => pure
          | round => exact (standing (tuple follows)).bind fun _ _ => pure
          | square => exact pure
      | _ => exact pure
  | _ => exact pure

theorem variantStepper_follows (enum : String) (inside : c.kind ≠ .endOfInput)
    (follows : ∀ c, Follows depth 1 c value value') :
    Follows depth 1 c (variantStepper enum value) (variantParser enum value') := by
  refine advance inside ((standing mark).bind fun _ _ => (standing word).bind fun name _ => ?_)
  exact (payloadStepper_follows follows).bind fun _ _ => pure

theorem wordStepper_follows (text : String) (inside : c.kind ≠ .endOfInput)
    (follows : ∀ c, Follows depth 1 c value value') :
    Follows depth 1 c (wordStepper text value) (wordParser text value') := by
  refine ite (fun _ => advance inside pure) fun _ => ite (fun _ => advance inside pure) fun _ =>
    ite (fun _ => advance inside pure) fun _ => nextKind ?_
  cases c.nextKind with
  | mark m =>
      cases m with
      | dot => exact variantStepper_follows text inside follows
      | opening b =>
          cases b with
          | round =>
              cases Extended.ofKeyword? text with
              | some extended => exact extendedStepper_follows extended inside
              | none => exact unexpected
          | brace => exact advance inside (standing (objectStepper_follows (some text) follows))
          | square => exact unexpected
      | _ => exact unexpected
  | _ => exact unexpected

theorem stepper_follows (follows : ∀ c, Follows depth 1 c value value') :
    Follows depth 1 c (stepper value) (parser value') := by
  refine kind ?_
  cases hKind : c.kind with
  | quoted text => exact advance (by simp [hKind]) pure
  | integer n => exact advance (by simp [hKind]) pure
  | word text => exact wordStepper_follows text (by simp [hKind]) follows
  | endOfInput => exact unexpected
  | fraction text =>
      dsimp only
      cases Number.Binary64.read text.toList with
      | some x => exact advance (by simp [hKind]) pure
      | none => exact unexpected
  | mark m =>
      cases m with
      | opening b =>
          cases b with
          | square => exact (block fun _ => follows).bind fun _ _ => pure
          | brace => exact objectStepper_follows none follows
          | round => exact unexpected
      | _ => exact unexpected

end Form

end

/-- By induction on the levels, as for types. -/
theorem Node.stepper_follows (enough : maxNesting - depth < levels) :
    Follows depth 1 c (Node.stepper levels) (Node.parserAt (maxNesting - depth)) := by
  induction levels generalizing depth c with
  | zero => omega
  | succ levels ih =>
      by_cases hRoom : depth < maxNesting
      · have hDeeper : maxNesting - depth = maxNesting - (depth + 1) + 1 := by omega
        rw [hDeeper]
        refine nested hRoom (here ?_)
        exact (Form.stepper_follows fun _ => ih (by omega)).bind fun _ _ => pure
      · have hFull : maxNesting - depth = 0 := by omega
        rw [hFull]
        exact nested_tooDeep (by omega)

/-! ### Documents -/

theorem Root.stepper_follows (enough : maxNesting < levels) :
    Follows 0 1 c (Root.stepper levels) Root.parser := by
  refine here (kind ?_)
  cases c.kind with
  | mark m =>
      cases m with
      | hash => exact unexpected
      | opening b =>
          cases b with
          | brace =>
              exact (Entry.blockStepper_follows fun _ => Node.stepper_follows enough).bind
                fun _ _ => pure
          | _ => exact unexpected
      | _ => exact unexpected
  | _ => exact unexpected

theorem Document.endStepper_follows :
    Follows 0 0 c Document.endStepper Document.endParser := by
  refine kind ?_
  cases c.kind with
  | endOfInput => exact pure
  | mark m =>
      cases m with
      | closing b => exact here fail
      | _ => exact unexpected
  | _ => exact unexpected

theorem Document.stepper_follows (enough : maxNesting < levels) :
    Follows 0 0 c (Document.stepper levels) Document.parser := by
  refine startingWith (fun _ => Include.stepper_follows) fun includes _ => ?_
  refine startingWith (fun _ => Declaration.stepper_follows enough) fun declarations _ => ?_
  refine (standing (Root.stepper_follows enough)).bind fun root _ => ?_
  exact Document.endStepper_follows.bind fun _ _ => pure

end TypedConfig
