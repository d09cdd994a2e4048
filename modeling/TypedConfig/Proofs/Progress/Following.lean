import TypedConfig.Proofs.Brackets.Tracking
import TypedConfig.Proofs.Progress
import TypedConfig.Proofs.Truncation
/-!
Steppers that follow parsers. A station stands where a cursor does, and moves with it: what is read
is the same, no end of input is passed, the depth is kept, and a reading that succeeds has moved by
as many tokens as are counted. That is kept when steppers are put together, and so loops end.
-/
namespace TypedConfig

/-- A setting that is enough for every run: the last token is the end of input, and a loop may take
as many rounds as there are tokens. -/
structure Setting.Complete (setting : Setting) : Prop where
  ended : Token.lastKind? setting.tokens = some .endOfInput
  rounds : setting.tokens.length ≤ setting.rounds

/-- A run goes from one station to another. It stays within the tokens and comes back to the depth
it began at. The tokens it takes are those that it passes, and none of them is an end of input. -/
structure Station.Reaches (setting : Setting) (s s' : Station) : Prop where
  forward : s.position ≤ s'.position
  within : s'.position < setting.tokens.length
  depth : s'.depth = s.depth
  takes : ∃ used, s'.taken = s.taken ++ used ∧
    setting.tokens.drop s.position = used ++ setting.tokens.drop s'.position ∧
    ∀ t ∈ used, t.kind ≠ .endOfInput

/-- A station and a cursor stand at the same token. -/
structure Station.At (setting : Setting) (s : Station) (c : Cursor) : Prop where
  file : c.file = setting.file
  tokens : c.current :: c.later = setting.tokens.drop s.position

namespace Station

variable {setting : Setting} {s s' s'' : Station} {c : Cursor}

theorem Reaches.refl (within : s.position < setting.tokens.length) : s.Reaches setting s where
  forward := Nat.le_refl _
  within := within
  depth := rfl
  takes := ⟨[], by simp, rfl, by simp⟩

theorem Reaches.trans (first : s.Reaches setting s') (second : s'.Reaches setting s'') :
    s.Reaches setting s'' where
  forward := Nat.le_trans first.forward second.forward
  within := second.within
  depth := second.depth.trans first.depth
  takes := by
    obtain ⟨used, hTaken, hTokens, hInside⟩ := first.takes
    obtain ⟨more, hMore, hRest, hFurther⟩ := second.takes
    refine ⟨used ++ more, by rw [hMore, hTaken, List.append_assoc],
      by rw [hTokens, hRest, List.append_assoc], fun t ht => ?_⟩
    rcases List.mem_append.1 ht with ht | ht
    · exact hInside t ht
    · exact hFurther t ht

/-- The depth is put back behind what was read one level deeper. -/
theorem Reaches.back (inner : Reaches setting { s with depth := s.depth + 1 } s') :
    s.Reaches setting { s' with depth := s'.depth - 1 } where
  forward := inner.forward
  within := inner.within
  depth := by
    have hDepth := inner.depth
    simp only at hDepth ⊢
    omega
  takes := inner.takes

/-- Every station within the tokens has a cursor. -/
theorem exists_at (within : s.position < setting.tokens.length) : ∃ c, s.At setting c :=
  ⟨⟨setting.file, setting.tokens[s.position], setting.tokens.drop (s.position + 1)⟩, rfl,
    (List.drop_eq_getElem_cons within).symm⟩

namespace At

theorem within (stands : s.At setting c) : s.position < setting.tokens.length := by
  by_contra hOutside
  have hTokens := stands.tokens
  rw [List.drop_eq_nil_of_le (by omega)] at hTokens
  cases hTokens

theorem current (stands : s.At setting c) : setting.tokens[s.position]? = some c.current := by
  rw [← List.head?_drop, ← stands.tokens]
  rfl

theorem kind_eq {c' : Cursor} (stands : s.At setting c) (alike : s.At setting c') :
    c.kind = c'.kind :=
  congrArg Token.kind (Option.some.inj (stands.current.symm.trans alike.current))

/-- A token that is not the end of input is not the last one. -/
theorem succ_lt (stands : s.At setting c) (complete : setting.Complete)
    (inside : c.kind ≠ .endOfInput) : s.position + 1 < setting.tokens.length := by
  by_contra hLast
  have hWithin := stands.within
  have hEnd : setting.tokens.getLast? = some c.current := by
    rw [List.getLast?_eq_getElem?, show setting.tokens.length - 1 = s.position by omega,
      stands.current]
  have hKind := complete.ended
  rw [Token.lastKind?, hEnd] at hKind
  exact inside (Option.some.inj hKind)

/-- What stands behind the token at hand. -/
theorem later_eq (stands : s.At setting c) : c.later = setting.tokens.drop (s.position + 1) := by
  rw [← List.tail_drop, ← stands.tokens]
  rfl

/-- The next token, and the last one behind itself. -/
theorem next (stands : s.At setting c) :
    setting.tokens[min (s.position + 1) (setting.tokens.length - 1)]? =
      some (c.later.head?.getD c.current) := by
  have hWithin := stands.within
  rw [stands.later_eq, List.head?_drop]
  by_cases hLast : s.position + 1 < setting.tokens.length
  · rw [Nat.min_eq_left (by omega), List.getElem?_eq_getElem hLast]
    rfl
  · rw [Nat.min_eq_right (by omega), show setting.tokens.length - 1 = s.position by omega,
      stands.current, List.getElem?_eq_none (by omega)]
    rfl

/-- Fewer tokens are left behind a station further on. -/
theorem later_lt {c' : Cursor} (stands : s.At setting c) (further : s'.At setting c')
    (moved : s.position + 1 ≤ s'.position) : c'.later.length < c.later.length := by
  have hWithin := further.within
  rw [stands.later_eq, further.later_eq, List.length_drop, List.length_drop]
  omega

theorem step (stands : s.At setting c) (complete : setting.Complete)
    (inside : c.kind ≠ .endOfInput) : (s.take c.current).At setting c.advance := by
  have hNext := stands.succ_lt complete inside
  have hLater := stands.later_eq
  rw [List.drop_eq_getElem_cons hNext] at hLater
  refine ⟨?_, ?_⟩
  · simpa only [Cursor.advance, hLater] using stands.file
  · simp only [Cursor.advance, hLater, take, List.drop_eq_getElem_cons hNext]

theorem reaches_step (stands : s.At setting c) (complete : setting.Complete)
    (inside : c.kind ≠ .endOfInput) : s.Reaches setting (s.take c.current) where
  forward := Nat.le_succ _
  within := stands.succ_lt complete inside
  depth := rfl
  takes := by
    refine ⟨[c.current], rfl, ?_, List.forall_mem_singleton.2 inside⟩
    rw [← stands.tokens, stands.later_eq]
    rfl

end At

end Station

namespace Stepper

variable {α β : Type} {setting : Setting} {s s' : Station} {c : Cursor} {m : Mark} {n k : Nat}

open Station (At)

/-! ### Single steps -/

/-- A stepper behind another one goes on where that one stopped. -/
theorem bind_apply (q : Stepper α) (f : α → Stepper β) :
    (q >>= f) setting s = match q setting s with
      | some (.ok a, s') => f a setting s'
      | some (.error d, s') => some (.error d, s')
      | none => none := by
  simp only [Bind.bind, ReaderT.bind, ExceptT.bind, ExceptT.mk, StateT.bind, Option.bind]
  rcases q setting s with _ | ⟨_ | a, s'⟩ <;> rfl

@[simp]
theorem pure_apply (a : α) : (pure a : Stepper α) setting s = some (.ok a, s) := rfl

@[simp]
theorem get_apply : (get : Stepper Station) setting s = some (.ok s, s) := rfl

@[simp]
theorem read_apply : (read : Stepper Setting) setting s = some (.ok setting, s) := rfl

theorem tokenAt_apply {index : Nat} {t : Token}
    (found : setting.tokens[min index (setting.tokens.length - 1)]? = some t) :
    tokenAt index setting s = some (.ok t, s) := by
  rw [tokenAt, found]

theorem current_apply (stands : s.At setting c) : current setting s = some (.ok c.current, s) := by
  have hWithin := stands.within
  rw [current, bind_apply, get_apply]
  refine tokenAt_apply ?_
  rw [Nat.min_eq_left (by omega), stands.current]

theorem kind_bind (stands : s.At setting c) (f : Token.Kind → Stepper β) :
    (kind >>= f) setting s = f c.kind setting s := by
  rw [bind_apply, kind, bind_apply, current_apply stands]
  rfl

theorem nextKind_bind (stands : s.At setting c) (f : Token.Kind → Stepper β) :
    (nextKind >>= f) setting s = f c.nextKind setting s := by
  have hNext : tokenAt (s.position + 1) setting s = _ := tokenAt_apply stands.next
  simp only [nextKind, bind_apply, get_apply, hNext]
  rfl

theorem here_bind (stands : s.At setting c) (f : Span → Stepper β) :
    (here >>= f) setting s = f c.span setting s := by
  simp only [here, bind_apply, current_apply stands, read_apply, Cursor.span, stands.file]
  rfl

theorem advance_bind (stands : s.At setting c) (complete : setting.Complete)
    (inside : c.kind ≠ .endOfInput) (f : Unit → Stepper β) :
    (advance >>= f) setting s = f () setting (s.take c.current) := by
  have hNext := stands.succ_lt complete inside
  simp only [advance, bind_apply, current_apply stands, get_apply, read_apply]
  rw [if_pos (by omega)]
  rfl

/-- The last token is taken, but it stays at hand. -/
theorem advance_apply_of_last (stands : s.At setting c)
    (last : s.position + 1 = setting.tokens.length) :
    advance setting s = some (.ok (), { s with taken := s.taken ++ [c.current] }) := by
  simp only [advance, bind_apply, current_apply stands, get_apply, read_apply]
  rw [if_neg (by omega)]
  rfl

theorem optionalMark_apply (stands : s.At setting c) (complete : setting.Complete)
    (taken : c.kind = .mark m) :
    optionalMark m setting s = some (.ok true, s.take c.current) := by
  rw [optionalMark, kind_bind stands, if_pos taken, advance_bind stands complete (by simp [taken])]
  rfl

theorem optionalMark_apply_of_ne (stands : s.At setting c) (absent : c.kind ≠ .mark m) :
    optionalMark m setting s = some (.ok false, s) := by
  rw [optionalMark, kind_bind stands, if_neg absent]
  rfl

theorem atClosing_apply (stands : s.At setting c) (b : Bracket) (opened : Span) :
    atClosing b opened setting s = match Parser.atClosing b opened c with
      | .ok (closes, _) => some (.ok closes, s)
      | .error d => some (.error d, s) := by
  have hHere (fault : SyntaxFault) : (do Stepper.fail fault (← here) : Stepper Bool) setting s =
      some (.error ⟨.grammatical fault, c.span⟩, s) := here_bind stands _
  rw [atClosing, kind_bind stands]
  rcases Parser.atClosing_cases b opened c with
    ⟨hKind, hRun⟩ | ⟨b', hWrong, hKind, hRun⟩ | ⟨hKind, hRun⟩ | ⟨hEnd, hOpen, hRun⟩
  · rw [hRun, hKind]
    simp only [if_pos]
    rfl
  · rw [hRun, hKind]
    simp only [if_neg hWrong]
    exact hHere _
  · rw [hRun, hKind]
    exact hHere _
  · rw [hRun]
    cases hKind : c.kind with
    | mark m =>
        cases m with
        | closing b' => exact absurd hKind (hOpen b')
        | _ => rfl
    | endOfInput => exact absurd hKind hEnd
    | _ => rfl

/-! ### Readings -/

/-- A run from a station ends as a parser does. If something was read, the station has moved by `n`
tokens at least and stands where the cursor does. -/
inductive Agrees (setting : Setting) (s : Station) (n : Nat) :
    Option (Except Diagnostic α × Station) → Except Diagnostic (α × Cursor) → Prop where
  | ok {a : α} {s' : Station} {c' : Cursor} (reaches : s.Reaches setting s')
      (stands : s'.At setting c') (moved : s.position + n ≤ s'.position) :
      Agrees setting s n (some (.ok a, s')) (.ok (a, c'))
  | error {d : Diagnostic} {s' : Station} (reaches : s.Reaches setting s') :
      Agrees setting s n (some (.error d, s')) (.error d)

/-- A stepper at the given depth follows a parser from the cursor, and moves by `n` tokens. -/
def Follows (depth n : Nat) (c : Cursor) (q : Stepper α) (p : Parser α) : Prop :=
  ∀ setting s, setting.Complete → s.At setting c → s.depth = depth →
    Agrees setting s n (q setting s) (p c)

namespace Agrees

variable {run : Option (Except Diagnostic α × Station)} {outcome : Except Diagnostic (α × Cursor)}

/-- What is read behind a station that was reached. -/
theorem behind (reaches : s.Reaches setting s') (moved : s.position + n ≤ s'.position)
    (agrees : Agrees setting s' k run outcome) : Agrees setting s n run outcome := by
  cases agrees with
  | ok hReaches stands hMoved =>
      exact .ok (reaches.trans hReaches) stands (Nat.le_trans moved (Nat.le_of_add_right_le hMoved))
  | error hReaches => exact .error (reaches.trans hReaches)

theorem bind {q : Stepper α} {p : Parser α} {f : α → Stepper β} {g : α → Parser β}
    (first : Agrees setting s n (q setting s) (p c))
    (second : ∀ a s' c', s.Reaches setting s' → s'.At setting c' →
      Agrees setting s' 0 (f a setting s') (g a c')) :
    Agrees setting s n ((q >>= f) setting s) ((p >>= g) c) := by
  rw [bind_apply, Parser.bind_apply]
  generalize q setting s = run, p c = outcome at first
  cases first with
  | ok reaches stands moved => exact (second _ _ _ reaches stands).behind reaches moved
  | error reaches => exact .error reaches

end Agrees

namespace Follows

variable {depth : Nat} {q : Stepper α} {p : Parser α}

/-- What follows and moves also follows. -/
theorem standing (follows : Follows depth n c q p) : Follows depth 0 c q p :=
  fun setting s complete stands hDepth =>
    (follows setting s complete stands hDepth).behind (.refl stands.within) (Nat.le_refl _)

theorem bind {f : α → Stepper β} {g : α → Parser β} (first : Follows depth n c q p)
    (second : ∀ a c', Follows depth 0 c' (f a) (g a)) :
    Follows depth n c (q >>= f) (p >>= g) :=
  fun setting s complete stands hDepth =>
    (first setting s complete stands hDepth).bind fun a s' c' reaches hStands =>
      second a c' setting s' complete hStands (reaches.depth.trans hDepth)

theorem pure {a : α} : Follows depth 0 c (Pure.pure a) (Pure.pure a) :=
  fun _ _ _ stands _ => .ok (.refl stands.within) stands (Nat.le_refl _)

theorem fail {fault : SyntaxFault} {span : Span} :
    Follows depth n c (Stepper.fail fault span : Stepper α) (Parser.fail fault span) :=
  fun _ _ _ stands _ => .error (.refl stands.within)

theorem kind {f : Token.Kind → Stepper β} {g : Token.Kind → Parser β}
    (next : Follows depth n c (f c.kind) (g c.kind)) :
    Follows depth n c (Stepper.kind >>= f) (Parser.kind >>= g) := by
  intro setting s complete stands hDepth
  rw [kind_bind stands]
  exact next setting s complete stands hDepth

theorem nextKind {f : Token.Kind → Stepper β} {g : Token.Kind → Parser β}
    (next : Follows depth n c (f c.nextKind) (g c.nextKind)) :
    Follows depth n c (Stepper.nextKind >>= f) (Parser.nextKind >>= g) := by
  intro setting s complete stands hDepth
  rw [nextKind_bind stands]
  exact next setting s complete stands hDepth

theorem here {f : Span → Stepper β} {g : Span → Parser β}
    (next : Follows depth n c (f c.span) (g c.span)) :
    Follows depth n c (Stepper.here >>= f) (Parser.here >>= g) := by
  intro setting s complete stands hDepth
  rw [here_bind stands]
  exact next setting s complete stands hDepth

/-- Only a token that is not the end of input is taken. -/
theorem advance {f : Unit → Stepper β} {g : Unit → Parser β} (inside : c.kind ≠ .endOfInput)
    (next : Follows depth 0 c.advance (f ()) (g ())) :
    Follows depth 1 c (Stepper.advance >>= f) (Parser.advance >>= g) := by
  intro setting s complete stands hDepth
  rw [advance_bind stands complete inside]
  exact (next setting _ complete (stands.step complete inside) hDepth).behind
    (stands.reaches_step complete inside) (Nat.le_refl _)

theorem unexpected {expected : Expectation} :
    Follows depth n c (Stepper.unexpected expected : Stepper α) (Parser.unexpected expected) :=
  kind (here fail)

theorem ite {condition : Prop} [Decidable condition] {q' : Stepper α} {p' : Parser α}
    (yes : condition → Follows depth n c q p) (no : ¬ condition → Follows depth n c q' p') :
    Follows depth n c (if condition then q else q') (if condition then p else p') := by
  split
  · next h => exact yes h
  · next h => exact no h

theorem take (inside : c.kind ≠ .endOfInput) :
    Follows depth 1 c Stepper.advance Parser.advance := by
  have hTake : Follows depth 1 c (Stepper.advance >>= Pure.pure) (Parser.advance >>= Pure.pure) :=
    advance inside pure
  rwa [bind_pure, bind_pure] at hTake

theorem mark : Follows depth 1 c (Stepper.mark m) (Parser.mark m) :=
  kind (ite (fun hKind => take (by simp [hKind])) fun _ => unexpected)

theorem word : Follows depth 1 c Stepper.word Parser.word := by
  refine kind ?_
  cases hKind : c.kind with
  | word text => exact advance (by simp [hKind]) pure
  | _ => exact unexpected

theorem quoted : Follows depth 1 c Stepper.quoted Parser.quoted := by
  refine kind ?_
  cases hKind : c.kind with
  | quoted text => exact advance (by simp [hKind]) pure
  | _ => exact unexpected

theorem optionalMark :
    Follows depth 0 c (Stepper.optionalMark m) (Parser.optionalMark m) := by
  refine kind (ite (fun hKind => ?_) fun _ => pure)
  exact standing (advance (by simp [hKind]) pure)

/-- Whether a block ends does not move, and the bracket that ends it is no end of input. -/
theorem atClosing {b : Bracket} {opened : Span} {f : Bool → Stepper β} {g : Bool → Parser β}
    (closes : c.kind = .mark (.closing b) → Follows depth n c (f true) (g true))
    (others : Follows depth n c (f false) (g false)) :
    Follows depth n c (Stepper.atClosing b opened >>= f) (Parser.atClosing b opened >>= g) := by
  intro setting s complete stands hDepth
  rw [bind_apply, Parser.bind_apply, atClosing_apply stands]
  rcases Parser.atClosing_cases b opened c with
    ⟨hKind, hRun⟩ | ⟨b', -, -, hRun⟩ | ⟨-, hRun⟩ | ⟨-, -, hRun⟩
  · rw [hRun]
    exact closes hKind setting s complete stands hDepth
  · rw [hRun]
    exact .error (.refl stands.within)
  · rw [hRun]
    exact .error (.refl stands.within)
  · rw [hRun]
    exact others setting s complete stands hDepth

/-- One level deeper the depth is one more, and it is put back. -/
theorem nested (room : depth < maxNesting) (inner : Follows (depth + 1) n c q p) :
    Follows depth n c (Stepper.nested q) p := by
  rintro setting s complete stands rfl
  rw [Stepper.nested, if_neg (by omega)]
  have hInner := inner setting { s with depth := s.depth + 1 } complete ⟨stands.file, stands.tokens⟩
    rfl
  generalize q setting { s with depth := s.depth + 1 } = run, p c = outcome at hInner
  cases hInner with
  | ok reaches hStands moved =>
      exact .ok (reaches.back) ⟨hStands.file, hStands.tokens⟩ moved
  | error reaches => exact .error (reaches.back)

theorem nested_tooDeep (full : maxNesting ≤ depth) :
    Follows depth n c (Stepper.nested q) (do Parser.fail .tooDeep (← Parser.here)) := by
  rintro setting s complete stands rfl
  rw [Stepper.nested, if_pos full]
  exact here fail setting s complete stands rfl

end Follows

end Stepper

end TypedConfig
