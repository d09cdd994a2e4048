import TypedConfig.Token
/-!
Brackets in a list of tokens. Balanced tokens close every bracket that they open, with one of its
own kind, and no other. A reading from left to right decides that: it keeps the brackets that are
still open, the innermost first.
-/
namespace TypedConfig.Token

/-- A token that neither opens nor closes a block. -/
def Kind.IsPlain (k : Kind) : Prop :=
  (∀ b, k ≠ .mark (.opening b)) ∧ ∀ b, k ≠ .mark (.closing b)

/-- Every bracket that is opened is closed by one of its kind, and what stands between the two is
balanced, too. -/
inductive Balanced : List Token → Prop where
  | nil : Balanced []
  | plain {t : Token} {rest : List Token} (plain : t.kind.IsPlain) (others : Balanced rest) :
      Balanced (t :: rest)
  | nested {t u : Token} {inner rest : List Token} {b : Bracket}
      (opening : t.kind = .mark (.opening b)) (inside : Balanced inner)
      (closing : u.kind = .mark (.closing b)) (others : Balanced rest) :
      Balanced (t :: (inner ++ u :: rest))

/-- The brackets that are open behind the tokens, if the given ones are open in front of them. There
are none if a closing bracket does not fit the innermost one that is open. -/
def openBehind? (outer : List Bracket) : List Token → Option (List Bracket)
  | [] => some outer
  | t :: rest =>
    match t.kind, outer with
    | .mark (.opening b), _ => openBehind? (b :: outer) rest
    | .mark (.closing b), o :: outer => if o = b then openBehind? outer rest else none
    | .mark (.closing _), [] => none
    | _, _ => openBehind? outer rest

/-! ### One token -/

section

variable {t : Token} {b o : Bracket} {outer : List Bracket} {rest : List Token}

theorem openBehind?_opening (opening : t.kind = .mark (.opening b)) :
    openBehind? outer (t :: rest) = openBehind? (b :: outer) rest := by
  simp [openBehind?, opening]

theorem openBehind?_closing (closing : t.kind = .mark (.closing b)) :
    openBehind? (b :: outer) (t :: rest) = openBehind? outer rest := by
  simp [openBehind?, closing]

theorem openBehind?_wrong (closing : t.kind = .mark (.closing b)) (wrong : b ≠ o) :
    openBehind? (o :: outer) (t :: rest) = none := by
  simp [openBehind?, closing, wrong.symm]

theorem openBehind?_unmatched (closing : t.kind = .mark (.closing b)) :
    openBehind? [] (t :: rest) = none := by
  simp [openBehind?, closing]

theorem openBehind?_plain (plain : t.kind.IsPlain) :
    openBehind? outer (t :: rest) = openBehind? outer rest := by
  obtain ⟨k, position⟩ := t
  cases k with
  | mark m =>
      cases m with
      | opening b => exact absurd rfl (plain.1 b)
      | closing b => exact absurd rfl (plain.2 b)
      | _ => rfl
  | _ => rfl

/-- A token opens a block, closes one, or does neither. -/
theorem Kind.bracket_cases (k : Kind) :
    (∃ b, k = .mark (.opening b)) ∨ (∃ b, k = .mark (.closing b)) ∨ k.IsPlain := by
  by_cases hOpening : ∃ b, k = .mark (.opening b)
  · exact .inl hOpening
  · by_cases hClosing : ∃ b, k = .mark (.closing b)
    · exact .inr (.inl hClosing)
    · exact .inr (.inr ⟨not_exists.1 hOpening, not_exists.1 hClosing⟩)

end

/-! ### Lists of tokens -/

section

variable {outer inner left : List Bracket} {tokens front rest : List Token}

theorem openBehind?_append :
    openBehind? outer (front ++ rest) = (openBehind? outer front).bind (openBehind? · rest) := by
  induction front generalizing outer with
  | nil => rfl
  | cons t front ih =>
      rcases t.kind.bracket_cases with ⟨b, hOpening⟩ | ⟨b, hClosing⟩ | hPlain
      · rw [List.cons_append, openBehind?_opening hOpening, openBehind?_opening hOpening, ih]
      · cases outer with
        | nil => simp [openBehind?_unmatched hClosing]
        | cons o outer =>
            by_cases hSame : b = o
            · subst hSame
              rw [List.cons_append, openBehind?_closing hClosing, openBehind?_closing hClosing, ih]
            · simp [openBehind?_wrong hClosing hSame]
      · rw [List.cons_append, openBehind?_plain hPlain, openBehind?_plain hPlain, ih]

/-- Brackets further out do not change what happens inside of them. -/
theorem openBehind?_outer (behind : openBehind? inner tokens = some left) (outer : List Bracket) :
    openBehind? (inner ++ outer) tokens = some (left ++ outer) := by
  induction tokens generalizing inner with
  | nil =>
      obtain rfl : inner = left := Option.some.inj behind
      rfl
  | cons t tokens ih =>
      rcases t.kind.bracket_cases with ⟨b, hOpening⟩ | ⟨b, hClosing⟩ | hPlain
      · rw [openBehind?_opening hOpening] at behind ⊢
        exact ih behind
      · cases inner with
        | nil => simp [openBehind?_unmatched hClosing] at behind
        | cons o inner =>
            by_cases hSame : b = o
            · subst hSame
              rw [openBehind?_closing hClosing] at behind
              rw [List.cons_append, openBehind?_closing hClosing]
              exact ih behind
            · simp [openBehind?_wrong hClosing hSame] at behind
      · rw [openBehind?_plain hPlain] at behind ⊢
        exact ih behind

/-- Balanced tokens leave open what was open in front of them. -/
theorem Balanced.openBehind?_eq (balanced : Balanced tokens) (outer : List Bracket) :
    openBehind? outer tokens = some outer := by
  induction balanced generalizing outer with
  | nil => rfl
  | plain plain _ ih => rw [openBehind?_plain plain, ih]
  | nested opening _ closing _ ihInner ihRest =>
      rw [openBehind?_opening opening, openBehind?_append, ihInner, Option.bind_some,
        openBehind?_closing closing, ihRest]

/-- Where the innermost open bracket is closed, what stands in front of that is balanced. By
induction on the number of tokens: a bracket that is opened first is closed first, and the search
goes on behind that. -/
theorem exists_closing {b : Bracket} (closes : openBehind? (b :: outer) tokens = some []) :
    ∃ before u after, tokens = before ++ u :: after ∧ Balanced before ∧
      u.kind = .mark (.closing b) ∧ openBehind? outer after = some [] := by
  induction hLength : tokens.length using Nat.strongRecOn generalizing b outer tokens with
  | _ n ih =>
      cases tokens with
      | nil => simp [openBehind?] at closes
      | cons t tokens =>
          have hLess : tokens.length < n := by simp [← hLength]
          rcases t.kind.bracket_cases with ⟨b', hOpening⟩ | ⟨b', hClosing⟩ | hPlain
          · rw [openBehind?_opening hOpening] at closes
            obtain ⟨inner, v, rest, rfl, hInner, hCloses, hRest⟩ := ih _ hLess closes rfl
            have hShorter : rest.length < n := by
              simp only [List.length_append, List.length_cons] at hLess
              omega
            obtain ⟨before, u, after, rfl, hBefore, hEnd, hAfter⟩ := ih _ hShorter hRest rfl
            exact ⟨t :: (inner ++ v :: before), u, after, by simp,
              .nested hOpening hInner hCloses hBefore, hEnd, hAfter⟩
          · by_cases hSame : b' = b
            · subst hSame
              rw [openBehind?_closing hClosing] at closes
              exact ⟨[], t, tokens, rfl, .nil, hClosing, closes⟩
            · simp [openBehind?_wrong hClosing hSame] at closes
          · rw [openBehind?_plain hPlain] at closes
            obtain ⟨before, u, after, rfl, hBefore, hEnd, hAfter⟩ := ih _ hLess closes rfl
            exact ⟨t :: before, u, after, rfl, .plain hPlain hBefore, hEnd, hAfter⟩

/-- Reading from left to right decides balance. -/
theorem balanced_iff : Balanced tokens ↔ openBehind? [] tokens = some [] := by
  refine ⟨fun balanced => balanced.openBehind?_eq [], fun behind => ?_⟩
  induction hLength : tokens.length using Nat.strongRecOn generalizing tokens with
  | _ n ih =>
      cases tokens with
      | nil => exact .nil
      | cons t tokens =>
          have hLess : tokens.length < n := by simp [← hLength]
          rcases t.kind.bracket_cases with ⟨b, hOpening⟩ | ⟨b, hClosing⟩ | hPlain
          · rw [openBehind?_opening hOpening] at behind
            obtain ⟨inner, u, rest, rfl, hInner, hCloses, hRest⟩ := exists_closing behind
            have hShorter : rest.length < n := by
              simp only [List.length_append, List.length_cons] at hLess
              omega
            exact .nested hOpening hInner hCloses (ih _ hShorter hRest rfl)
          · simp [openBehind?_unmatched hClosing] at behind
          · rw [openBehind?_plain hPlain] at behind
            exact .plain hPlain (ih _ hLess behind rfl)

instance (tokens : List Token) : Decidable (Balanced tokens) :=
  decidable_of_iff _ balanced_iff.symm

end

end TypedConfig.Token
