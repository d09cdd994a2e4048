import TypedConfig.Proofs.Progress.Following
/-!
Loops that end. An item takes at least one token and stays within the tokens, so that a loop needs
no more rounds than there are tokens, and no parser stops because an item took none.
-/
namespace TypedConfig.Stepper

open Station (At)

variable {α β : Type} {setting : Setting} {s s' : Station} {c : Cursor} {m : Mark} {n : Nat}
  {depth : Nat} {q : Stepper α} {p : Parser α} {b : Bracket} {opened : Span}

/-- The run of a loop over a block ends at the bracket that closes the block, which a parser takes
as well. Without an item it has not moved. -/
inductive Closes (setting : Setting) (s : Station) (b : Bracket) :
    Option (Except Diagnostic (List α) × Station) → Except Diagnostic (List α × Cursor) → Prop where
  | ok {as : List α} {s' : Station} {c' : Cursor} (reaches : s.Reaches setting s')
      (stands : s'.At setting c') (closing : c'.kind = .mark (.closing b))
      (still : as = [] → s' = s) :
      Closes setting s b (some (.ok as, s')) (.ok (as, c'.advance))
  | error {d : Diagnostic} {s' : Station} (reaches : s.Reaches setting s') :
      Closes setting s b (some (.error d, s')) (.error d)

/-- A round of a loop reads an item and takes the comma behind it, if there is one. -/
theorem round_cases (follows : Follows depth 1 c q p) (complete : setting.Complete)
    (stands : s.At setting c) (hDepth : s.depth = depth) :
    (∃ d s', round q setting s = some (.error d, s') ∧ p c = .error d ∧ s.Reaches setting s') ∨
      ∃ a s' next, round q setting s = some (.ok (a, next.kind = .mark .comma), s') ∧
        p c = .ok (a, next) ∧ s.Reaches setting s' ∧ s.position + 1 ≤ s'.position ∧
        s'.At setting (if next.kind = .mark .comma then next.advance else next) := by
  have hItem := follows setting s complete stands hDepth
  rw [round, bind_apply]
  generalize q setting s = run, p c = outcome at hItem
  cases hItem with
  | error reaches => exact .inl ⟨_, _, rfl, rfl, reaches⟩
  | @ok a s' next reaches hStands moved =>
      refine .inr ?_
      by_cases hComma : next.kind = .mark .comma
      · have hInside : next.kind ≠ .endOfInput := by simp [hComma]
        have hStep := hStands.reaches_step complete hInside
        refine ⟨a, _, next, ?_, rfl, reaches.trans hStep, Nat.le_succ_of_le moved, ?_⟩
        · simp only [bind_apply, optionalMark_apply hStands complete hComma, hComma]
          rfl
        · rw [if_pos hComma]
          exact hStands.step complete hInside
      · refine ⟨a, s', next, ?_, rfl, reaches, moved, ?_⟩
        · simp only [bind_apply, optionalMark_apply_of_ne hStands hComma, hComma]
          rfl
        · rwa [if_neg hComma]

theorem Follows.round (follows : Follows depth n c q p) :
    Follows depth n c (Stepper.round q) (do let a ← p; return (a, ← Parser.optionalMark .comma)) :=
  follows.bind fun _ _ => optionalMark.bind fun _ _ => pure

theorem optionalMark_parser_apply (m : Mark) (c : Cursor) : Parser.optionalMark m c =
    .ok (c.kind = .mark m, if c.kind = .mark m then c.advance else c) := by
  have hRun : Parser.optionalMark m c =
      ((if c.kind = .mark m then do Parser.advance; return true else return false) :
        Parser Bool) c := rfl
  rw [hRun]
  by_cases hKind : c.kind = .mark m <;> simp only [hKind] <;> rfl

theorem seqLeft_apply_of_ok {a : α} {next : Cursor} (reads : p c = .ok (a, next)) :
    (p <* Parser.optionalMark .comma) c =
      .ok (a, if next.kind = .mark .comma then next.advance else next) := by
  rw [seqLeft_eq_bind, Parser.bind_apply, reads]
  simp only [Parser.bind_apply, optionalMark_parser_apply]
  rfl

theorem seqLeft_apply_of_error {d : Diagnostic} (stops : p c = .error d) :
    (p <* Parser.optionalMark .comma) c = .error d := by
  rw [seqLeft_eq_bind, Parser.bind_apply, stops]

/-- What was read in front of the rest of a block. -/
theorem Closes.cons {rest : Stepper (List α)} {outcome : Except Diagnostic (List α × Cursor)}
    {a : α} (reaches : s.Reaches setting s') :
    Closes setting s' b (rest setting s') outcome →
      Closes setting s b ((do return a :: (← rest)) setting s')
        (match outcome with
        | .error d => .error d
        | .ok (as, last) => .ok (a :: as, last)) := by
  intro closes
  rw [bind_apply]
  generalize rest setting s' = run at closes
  cases closes with
  | ok hReaches stands closing _ => exact .ok (reaches.trans hReaches) stands closing (by simp)
  | error hReaches => exact .error (reaches.trans hReaches)

/-- By induction on the rounds: each takes a token, so that there are always more rounds left than
tokens behind the station. The parser finds that each item took a token as well. -/
theorem closes_items {item : List α → Stepper α} {item' : List α → Parser α}
    (each : ∀ before c, Follows depth 1 c (item before) (item' before))
    (complete : setting.Complete) (rounds : Nat) (before : List α) (stands : s.At setting c)
    (hDepth : s.depth = depth) (enough : setting.tokens.length ≤ s.position + rounds) :
    Closes setting s b (items b opened item rounds before setting s)
      (Parser.itemsFrom b opened item' before c) := by
  have hWithin := stands.within
  induction rounds generalizing s c before with
  | zero => omega
  | succ rounds ih =>
      rw [items, bind_apply, atClosing_apply stands, Parser.itemsFrom]
      rcases Parser.atClosing_cases b opened c with
        ⟨hKind, hRun⟩ | ⟨b', -, -, hRun⟩ | ⟨-, hRun⟩ | ⟨-, -, hRun⟩
      · rw [hRun]
        exact .ok (.refl hWithin) stands hKind fun _ => rfl
      · rw [hRun]
        exact .error (.refl hWithin)
      · rw [hRun]
        exact .error (.refl hWithin)
      · rw [hRun]
        simp only [Bool.false_eq_true, if_false]
        rcases round_cases (each before c) complete stands hDepth with
          ⟨d, s', hRound, hItem, hReaches⟩ | ⟨a, s', next, hRound, hItem, hReaches, hMoved, hNext⟩
        · rw [bind_apply, hRound, seqLeft_apply_of_error hItem]
          exact .error hReaches
        · rw [bind_apply, hRound, seqLeft_apply_of_ok hItem]
          dsimp only
          rw [if_pos (stands.later_lt hNext hMoved)]
          exact .cons hReaches (ih (a :: before) hNext (hReaches.depth.trans hDepth) (by omega)
            hNext.within)

/-- The bracket that closes a block is taken behind its items. -/
theorem Closes.advance {rest : Stepper (List α)} {outcome : Except Diagnostic (List α × Cursor)}
    (complete : setting.Complete) :
    Closes setting s b (rest setting s) outcome →
      Agrees setting s 0 ((do let as ← rest; Stepper.advance; return as) setting s) outcome := by
  intro closes
  rw [bind_apply]
  generalize rest setting s = run at closes
  cases closes with
  | error reaches => exact .error reaches
  | @ok as s' c' reaches stands closing _ =>
      have hInside : c'.kind ≠ .endOfInput := by simp [closing]
      dsimp only
      rw [advance_bind stands complete hInside]
      exact .ok (reaches.trans (stands.reaches_step complete hInside))
        (stands.step complete hInside) (Nat.le_succ_of_le reaches.forward)

theorem Follows.block {item : List α → Stepper α} {item' : List α → Parser α}
    (each : ∀ before c, Follows depth 1 c (item before) (item' before)) :
    Follows depth 1 c (Stepper.block b item) (Parser.block b item') := by
  refine here (mark.bind fun _ c' => ?_)
  intro setting s complete stands hDepth
  exact (closes_items each complete setting.rounds [] stands hDepth
    (Nat.le_add_left_of_le complete.rounds)).advance complete

theorem items_apply_of_closing {item : List α → Stepper α} {rounds : Nat} {before : List α}
    (stands : s.At setting c) (closing : c.kind = .mark (.closing b)) :
    items b opened item (rounds + 1) before setting s = some (.ok [], s) := by
  rw [items, bind_apply, atClosing_apply stands]
  rcases Parser.atClosing_cases b opened c with
    ⟨-, hRun⟩ | ⟨b', hWrong, hKind, -⟩ | ⟨hKind, -⟩ | ⟨-, hOpen, -⟩
  · rw [hRun]
    rfl
  · rw [closing] at hKind
    cases hKind
    exact absurd rfl hWrong
  · rw [closing] at hKind
    cases hKind
  · exact absurd closing (hOpen b)

/-- A block with no items is noticed at its closing bracket, or in front of it. -/
theorem Follows.nonempty {item : List α → Stepper α} {item' : List α → Parser α} (opened : Span)
    (expected : Expectation) (each : ∀ before c, Follows depth 1 c (item before) (item' before)) :
    Follows depth 0 c
      (do
        let as ← items b opened item (← read).rounds []
        if as.isEmpty then Stepper.unexpected expected
        else
          Stepper.advance
          return as)
      (do
        if (← Parser.kind) = .mark (.closing b) then Parser.unexpected expected
        else Parser.itemsFrom b opened item' []) := by
  intro setting s complete stands hDepth
  have hStart : (Parser.kind >>= fun k => if k = .mark (.closing b) then
      Parser.unexpected expected else Parser.itemsFrom b opened item' []) c =
      (if c.kind = .mark (.closing b) then Parser.unexpected expected
        else Parser.itemsFrom b opened item' []) c := rfl
  rw [hStart, bind_apply, read_apply]
  dsimp only
  rw [bind_apply]
  by_cases hClosing : c.kind = .mark (.closing b)
  · obtain ⟨rounds, hRounds⟩ : ∃ rounds, setting.rounds = rounds + 1 :=
      Nat.exists_eq_succ_of_ne_zero (by have := stands.within; have := complete.rounds; omega)
    rw [if_pos hClosing, hRounds, items_apply_of_closing stands hClosing]
    exact unexpected setting s complete stands hDepth
  · have hCloses : Closes setting s b (items b opened item setting.rounds [] setting s) _ :=
      closes_items each complete setting.rounds [] stands hDepth
        (Nat.le_add_left_of_le complete.rounds)
    have hTaken := hCloses.advance complete
    rw [bind_apply] at hTaken
    rw [if_neg hClosing]
    generalize items b opened item setting.rounds [] setting s = run,
      Parser.itemsFrom b opened item' [] c = outcome at hCloses hTaken
    cases hCloses with
    | error reaches => exact .error reaches
    | @ok as s' c' reaches hStands closing still =>
        have hItems : as.isEmpty = false := by
          cases as with
          | cons a as => rfl
          | nil =>
              obtain rfl := still rfl
              exact absurd ((stands.kind_eq hStands).trans closing) hClosing
        dsimp only
        rw [hItems]
        exact hTaken

/-- What was read in front of the rest of a list. -/
theorem Agrees.cons {rest : Stepper (List α)} {outcome : Except Diagnostic (List α × Cursor)}
    {a : α} :
    Agrees setting s n (rest setting s) outcome →
      Agrees setting s n ((do return a :: (← rest)) setting s)
        (match outcome with
        | .error d => .error d
        | .ok (as, last) => .ok (a :: as, last)) := by
  intro agrees
  rw [bind_apply]
  generalize rest setting s = run at agrees
  cases agrees with
  | ok reaches stands moved => exact .ok reaches stands moved
  | error reaches => exact .error reaches

/-- Behind the last item of a tuple, the bracket is taken that closes it. -/
theorem Follows.slotsEnd (opened : Span) (a : α) :
    Follows depth 0 c
      (do if ← Stepper.atClosing .round opened then Stepper.advance; return [a]
          else Stepper.unexpected .commaOrParen)
      (do if ← Parser.atClosing .round opened then Parser.advance; return [a]
          else Parser.unexpected .commaOrParen) :=
  atClosing (fun hKind => standing (advance (by simp [hKind]) pure)) unexpected

/-- By induction on the rounds, as in a block. A comma behind an item leads to another round. -/
theorem agrees_slots (each : ∀ c, Follows depth 1 c q p) (complete : setting.Complete)
    (rounds : Nat) (stands : s.At setting c) (hDepth : s.depth = depth)
    (enough : setting.tokens.length ≤ s.position + rounds) :
    Agrees setting s 0 (slots opened q rounds setting s) (Parser.slotsFrom opened p c) := by
  have hWithin := stands.within
  induction rounds generalizing s c with
  | zero => omega
  | succ rounds ih =>
      rw [slots, bind_apply, Parser.slotsFrom]
      rcases round_cases (each c) complete stands hDepth with
        ⟨d, s', hRound, hItem, hReaches⟩ | ⟨a, s', next, hRound, hItem, hReaches, hMoved, hNext⟩
      · rw [hRound, hItem]
        exact .error hReaches
      · rw [hRound, hItem]
        refine Agrees.behind (k := 0) hReaches hReaches.forward ?_
        by_cases hComma : next.kind = .mark .comma
        · simp only [hComma, if_true] at hNext ⊢
          rw [if_pos (stands.later_lt hNext hMoved)]
          exact .cons (ih hNext (hReaches.depth.trans hDepth) (by omega) hNext.within)
        · simp only [hComma, if_false] at hNext ⊢
          have hEnd := Follows.slotsEnd opened a setting s' complete hNext
            (hReaches.depth.trans hDepth)
          rw [Parser.bind_apply] at hEnd
          generalize Parser.atClosing .round opened next = closes at hEnd ⊢
          rcases closes with d | ⟨_ | _, last⟩ <;> exact hEnd

/-- By induction on the rounds, as in a block. -/
theorem agrees_startingWith (each : ∀ c, Follows depth 1 c q p) (complete : setting.Complete)
    (rounds : Nat) (stands : s.At setting c) (hDepth : s.depth = depth)
    (enough : setting.tokens.length ≤ s.position + rounds) :
    Agrees setting s 0 (startingWith m q rounds setting s) (Parser.startingWith m p c) := by
  have hWithin := stands.within
  induction rounds generalizing s c with
  | zero => omega
  | succ rounds ih =>
      rw [startingWith, kind_bind stands, Parser.startingWith]
      by_cases hKind : c.kind = .mark m
      · rw [if_pos hKind, if_pos hKind, bind_apply]
        have hItem := each c setting s complete stands hDepth
        generalize q setting s = run, p c = outcome at hItem
        cases hItem with
        | error reaches => exact .error reaches
        | ok reaches hNext moved =>
            dsimp only
            rw [if_pos (stands.later_lt hNext moved)]
            refine Agrees.behind (k := 0) reaches reaches.forward (.cons ?_)
            exact ih hNext (reaches.depth.trans hDepth) (by omega) hNext.within
      · rw [if_neg hKind, if_neg hKind]
        exact .ok (.refl hWithin) stands (Nat.le_refl _)

theorem Follows.tuple (each : ∀ c, Follows depth 1 c q p) :
    Follows depth 1 c (Stepper.tuple q) (Parser.tuple p) :=
  here (mark.bind fun _ _ setting _ complete stands hDepth =>
    agrees_slots each complete setting.rounds stands hDepth
      (Nat.le_add_left_of_le complete.rounds))

theorem Follows.startingWith {f : List α → Stepper β} {g : List α → Parser β}
    (each : ∀ c, Follows depth 1 c q p) (next : ∀ as c', Follows depth 0 c' (f as) (g as)) :
    Follows depth 0 c
      (do let as ← Stepper.startingWith m q (← read).rounds; f as)
      (do let as ← Parser.startingWith m p; g as) :=
  fun setting _ complete stands hDepth =>
    (agrees_startingWith each complete setting.rounds stands hDepth
      (Nat.le_add_left_of_le complete.rounds)).bind fun as _ c' reaches hStands =>
        next as c' setting _ complete hStands (reaches.depth.trans hDepth)

end TypedConfig.Stepper
