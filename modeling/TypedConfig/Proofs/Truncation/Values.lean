import TypedConfig.Node.Parser
import TypedConfig.Proofs.Truncation.Declarations
/-!
Values that are cut off. A value begins behind the colon of an entry, in an array, or in a tuple. A
word that is no literal has to be followed by a dot or a bracket, and the argument of a keyword by
the bracket that closes it; all other values are whole behind their last token.
-/
namespace TypedConfig

open TypedConfig.Parser TypedConfig.Token TypedConfig.Cut

/-- The kinds of tokens that may follow a value, or an item that ends with one. -/
def Token.Kind.AfterValue (k : Token.Kind) : Prop :=
  k ≠ .mark .colon ∧ k ≠ .mark .question ∧ k ≠ .mark .dot

/-- A value may follow the tokens, and a name of an alternative or the argument of a keyword may
not. -/
structure Token.BeforeValue (tokens : List Token) : Prop where
  rooted : Rooted tokens
  noArgument : ¬ AwaitsArgument tokens
  noDot : lastKind? tokens ≠ some (.mark .dot)
  noName : lastKind? tokens = some (.mark .colon) ∨ ∀ o, ¬ Innermost tokens .brace o

/-- What is shown of the parser of values one level deeper. -/
structure Cut.ReadsValue (cut : Cut) (value : Parser Node) : Prop where
  reads : ∀ {behind front : List Token} {t : Token}, BeforeValue behind →
    cut.Reads behind (t :: front) value value (cut.Part Kind.AfterValue behind)
      (cut.Halts (t :: front))
  stops : Stops value
  starts : ∀ c a d, value c = .ok (a, d) → c.kind.AfterValue

variable {cut : Cut} {behind front : List Token} {t o : Token} {value : Parser Node}

/-! ### Tokens in front of values -/

namespace Token

variable {tokens moved : List Token} {b : Bracket}

theorem not_awaitsArgument (last : lastKind? tokens ≠ some (.mark (.opening .round))) :
    ¬ AwaitsArgument tokens := by
  rintro ⟨front, keyword, round, text, rfl, -, hRound, -⟩
  have hSplit : front ++ [keyword, round] = front ++ [keyword] ++ [round] := by simp
  rw [hSplit, lastKind?_concat, hRound] at last
  exact last rfl

/-- Nothing balanced ends with an opening bracket. -/
theorem AwaitsArgument.of_append (awaits : AwaitsArgument (tokens ++ moved))
    (balanced : Balanced moved) : AwaitsArgument tokens := by
  rcases List.eq_nil_or_concat moved with rfl | ⟨before, t, rfl⟩
  · simpa using awaits
  · rw [List.concat_eq_append] at awaits balanced
    refine absurd balanced (not_balanced_of_open (b := .round) ?_ .nil)
    obtain ⟨front, keyword, round, text, heq, -, hRound, -⟩ := awaits
    have hSplit : tokens ++ before ++ [t] = front ++ [keyword] ++ [round] := by simpa using heq
    obtain ⟨-, hLast⟩ := List.append_inj' hSplit rfl
    rw [List.singleton_inj.1 hLast, hRound]

theorem Rooted.opening (rooted : Rooted tokens) (opening : t.kind = .mark (.opening b)) :
    Rooted (tokens ++ [t]) := by
  refine rooted.append ?_
  rw [openBehind?_opening opening]
  rfl

theorem Rooted.plain (rooted : Rooted tokens) (plain : t.kind.IsPlain) : Rooted (tokens ++ [t]) :=
  rooted.append (Balanced.one plain).isSome

/-- A value behind the colon of an entry. -/
theorem BeforeValue.of_colon (rooted : Rooted tokens) (colon : t.kind = .mark .colon) :
    BeforeValue (tokens ++ [t]) where
  rooted := rooted.plain (by simp [Kind.IsPlain, colon])
  noArgument := not_awaitsArgument (by simp [colon])
  noDot := by simp [colon]
  noName := .inl (by rw [lastKind?_concat, colon])

/-- A value in a block that is none of braces. -/
theorem BeforeValue.of_block (rooted : Rooted tokens) (noArgument : ¬ AwaitsArgument tokens)
    (noDot : lastKind? tokens ≠ some (.mark .dot)) (innermost : Innermost tokens b o)
    (noBrace : b ≠ .brace) : BeforeValue tokens where
  rooted := rooted
  noArgument := noArgument
  noDot := noDot
  noName := .inr fun _ hBrace => noBrace (innermost.unique hBrace).1

/-- A word that begins a value is no whole value if a dot or a bracket follows, unless it is a
literal. -/
theorem BeforeValue.not_pausesAt {text : String} {next : Kind} (before : BeforeValue tokens)
    (literal : text ∉ ["true", "false", "null"])
    (follows : next = .mark .dot ∨ ∃ b, next = .mark (.opening b)) :
    ¬ PausesAt tokens next (.word text) := by
  rintro ⟨-, -, hDot, hOpening⟩
  rcases follows with hNext | ⟨b, hNext⟩
  · exact hDot hNext
  · rcases hOpening b hNext with hLiteral | hLast | ⟨hColon, o, hBrace⟩
    · exact literal hLiteral
    · exact before.noDot hLast
    · exact before.noName.elim hColon fun hNone => hNone o hBrace

end Token

/-! ### Entries -/

theorem Entry.parser_reads (parts : cut.ReadsValue value) (before : List Entry)
    (rooted : Rooted behind) :
    cut.Reads behind (t :: front) (Entry.parser value before) (Entry.parser value before)
      (cut.Part Kind.AfterValue behind) (cut.Halts (t :: front)) := by
  refine .here (.kind ?_)
  split
  · next key hWord =>
    have hOne : Balanced [t] := .one (by simp [Kind.IsPlain, hWord])
    have hKeyed : Rooted (behind ++ [t]) := rooted.append hOne.isSome
    have hRest : cut.Reads (behind ++ [t]) front
        (do Parser.mark .colon
            let node ← value
            if before.any (·.key = key) then fail (.duplicateKey key) (t.span cut.file)
            else return (⟨key, t.span cut.file, node⟩ : Entry))
        (do Parser.mark .colon
            let node ← value
            if before.any (·.key = key) then fail (.duplicateKey key) (t.span cut.file)
            else return (⟨key, t.span cut.file, node⟩ : Entry))
        (cut.Part Kind.AfterValue (behind ++ [t])) (cut.Halts front) := by
      refine (Reads.mark (S := False) fun hUsed hNext => ?_).andThen ?_
        (fun _ _ others hSplit hColon => ?_) False.elim
      · rw [hUsed, pauses_concat, hWord]
        exact fun hPauses => hPauses.1 hNext
      · rintro _ ⟨u, rfl, hColon⟩
        exact .one (by simp [Kind.IsPlain, hColon])
      obtain ⟨u, rfl, hColon⟩ := hColon
      have hColonOne : Balanced [u] := .one (by simp [Kind.IsPlain, hColon])
      refine .refusing ?_
      cases others with
      | nil =>
          refine .of_stuck parts.stops fun hUsed => ?_
          rw [hUsed, pauses_concat, hColon]
          exact id
      | cons v others =>
          refine (parts.reads (.of_colon hKeyed hColon)).imp (fun _ => id) fun halts => ?_
          rw [hSplit]
          exact halts.prepend hColonOne
    exact .advance (hRest.imp (fun _ part => part.cons hOne) fun halts => halts.prepend hOne)
  · exact .of_unexpected

/-- The entries of an object. -/
theorem Entry.loop (parts : cut.ReadsValue value) :
    cut.Loop .brace o Rooted Kind.AfterValue (Entry.parser value) where
  notRound := by simp
  keeps _ _ rooted balanced := rooted.append balanced.isSome
  closing := by simp [Kind.AfterValue]
  comma := by simp [Kind.AfterValue]
  starts before c a d hRun := by
    obtain ⟨span, e, hHere, hRest⟩ := bind_eq_ok.1 hRun
    obtain ⟨k, e', hKind, hRest⟩ := bind_eq_ok.1 hRest
    obtain ⟨-, rfl⟩ := here_eq_ok.1 hHere
    obtain ⟨rfl, -⟩ := kind_eq_ok.1 hKind
    cases h : e.kind with
    | word key => simp [Kind.AfterValue]
    | _ => simp [h] at hRest
  each before _ _ _ rooted _ _ := Entry.parser_reads parts before rooted

theorem Entry.blockParser_reads (parts : cut.ReadsValue value)
    (rooted : o.kind = .mark (.opening .brace) → Rooted (behind ++ [o])) :
    cut.Reads behind (o :: front) (Entry.blockParser value) (Entry.blockParser value) Enclosed
      False :=
  .block (fun _ => Entry.loop parts) rooted (by simp)

namespace Form

variable (parts : cut.ReadsValue value)

theorem stops_extended {kind : Extended} : Stops (do
    match ← Parser.kind, ← Parser.nextKind with
    | .quoted raw, .mark (.closing .round) => do
      Parser.advance
      Parser.advance
      return Form.extended kind raw
    | _, _ => Parser.fail (.literalArgument kind) (← Parser.here) : Parser Form) := by
  refine stops_kind fun c hKind => ?_
  exact ⟨_, rfl, by simp [Diagnostic.IsUnbalanced, Cause.code, SyntaxFault.code]⟩

/-- The argument of a keyword is no whole value, as only the bracket behind it may follow. -/
theorem extendedParser_reads (kind : Extended) {text : String} {u : Token}
    (word : t.kind = .word text) (before : BeforeValue behind) :
    cut.Reads behind (t :: u :: front) (extendedParser kind) (extendedParser kind)
      (cut.Part Kind.AfterValue behind) (cut.Halts (t :: u :: front)) := by
  have hOne : Balanced [t] := .one (by simp [Kind.IsPlain, word])
  refine .advance ?_
  refine Reads.bind (S := False) Reads.mark_opening (fun _ moved others hSplit hMoved => ?_)
    False.elim
  obtain ⟨rfl, hRound⟩ := hMoved
  obtain rfl := (List.cons.inj hSplit).2
  cases front with
  | nil =>
      refine .of_stuck stops_extended fun hUsed => ?_
      rw [hUsed, pauses_concat, hRound]
      exact id
  | cons v front =>
      refine .kind ?_
      cases front with
      | nil =>
          refine .nextKind_cut ?_
          split
          · next raw hQuoted hClosing =>
            refine .of_refused (fun c => ?_) fun hUsed => ?_
            · rw [hQuoted]
              exact ⟨_, rfl, by simp [Diagnostic.IsUnbalanced, Cause.code, SyntaxFault.code]⟩
            · rw [hUsed, pauses_concat, hQuoted]
              exact fun hPauses => hPauses
                ⟨behind, t, u, text, by simp, word, hRound, before.noDot⟩
          · exact .of_stops fun c a d hRun => by simp at hRun
      | cons w front =>
          refine .nextKind ?_
          split
          · next raw hQuoted hClosing =>
            refine .advance (.advance (.pure ?_))
            have hBlock : Enclosed (u :: [v, w]) :=
              ⟨.round, u, [v, w], rfl, hRound, [v], w, rfl,
                .one (by simp [Kind.IsPlain, hQuoted]), hClosing⟩
            exact (Part.of_enclosed hBlock).cons hOne
          · exact .of_stops fun c a d hRun => by simp at hRun

/-- The values that an alternative carries. -/
theorem slotLoop (parts : cut.ReadsValue value) : cut.SlotLoop o
    (fun tokens => Rooted tokens ∧ ¬ AwaitsArgument tokens) Kind.AfterValue value where
  keeps _ _ context balanced :=
    ⟨context.1.append balanced.isSome, fun awaits => context.2 (awaits.of_append balanced)⟩
  closing := by simp [Kind.AfterValue]
  comma := by simp [Kind.AfterValue]
  stops := parts.stops
  each _ _ _ context innermost begins := parts.reads
    (.of_block context.1 context.2 (by rcases begins with h | h <;> simp [h]) innermost (by simp))

include parts

/-- What an alternative carries, behind the dot in front of its name. That dot is why the name is no
keyword that an argument follows. -/
theorem payloadParser_reads {u v : Token} {S : Prop} (dot : u.kind = .mark .dot)
    (rooted : Rooted (behind ++ [u] ++ [v]))
    (ended : front = [] → (∃ b, cut.next.kind = .mark (.opening b)) → S) :
    cut.Reads (behind ++ [u] ++ [v]) front (payloadParser value) (payloadParser value)
      (fun moved => moved = [] ∨ Enclosed moved) S := by
  refine .payload rfl rfl ?_ (fun w more hFront hRound => ?_) (fun w more hFront hBrace => ?_) ended
  · intro k hRound hBrace
    split
    · exact absurd rfl hBrace
    · exact absurd rfl hRound
    · rfl
  · subst hFront
    refine .tuple (fun _ => slotLoop parts) ⟨rooted.opening hRound, ?_⟩
    rintro ⟨front, keyword, round, word, heq, -, -, hLast⟩
    have hSplit : (behind ++ [u]) ++ [v, w] = front ++ [keyword, round] := by simpa using heq
    obtain ⟨rfl, -⟩ := List.append_inj' hSplit rfl
    exact hLast (by rw [lastKind?_concat, dot])
  · subst hFront
    exact Entry.blockParser_reads parts fun _ => rooted.opening hBrace

/-- The name of an alternative is a whole value, as a dot stands in front of it. -/
theorem variantParser_reads {text : String} (word : t.kind = .word text) (rooted : Rooted behind) :
    cut.Reads behind (t :: front) (variantParser text value) (variantParser text value)
      (cut.Part Kind.AfterValue behind) (cut.Halts (t :: front)) := by
  have hOne : Balanced [t] := .one (by simp [Kind.IsPlain, word])
  refine .advance (.of_used fun hUsed => Reads.bind (S := False) (Reads.mark fun hCut hNext => ?_)
    (fun _ _ others hSplit hDot => ?_) False.elim)
  · rw [hCut, pauses_concat, word]
    exact fun hPauses => hPauses.2.2.1 hNext
  obtain ⟨u, rfl, hDot⟩ := hDot
  cases others with
  | nil =>
      refine .of_stuck (stops_kind stops_unexpected).bind fun hCut => ?_
      rw [hCut, pauses_concat, hDot]
      exact id
  | cons v others =>
      refine Reads.bind (S := False) Reads.word (fun name _ others' hSplit' hName => ?_) False.elim
      obtain ⟨rfl, text', hName⟩ := hName
      obtain rfl := (List.cons.inj hSplit').2
      subst hSplit
      have hPrefix : Balanced ([t] ++ ([u] ++ [v])) :=
        hOne.append ((Balanced.one (by simp [Kind.IsPlain, hDot])).append
          (.one (by simp [Kind.IsPlain, hName])))
      have hRooted : Rooted (behind ++ [t] ++ [u] ++ [v]) := by
        simpa using rooted.append hPrefix.isSome
      have hPart : cut.Part Kind.AfterValue (behind ++ [t] ++ [u]) [v] := by
        refine .of_token (by simp [Kind.IsPlain, hName]) (by simp [hName]) (by simp [hName]) ?_
        rw [hName]
        exact fun hNext => ⟨hNext.1, hNext.2.1, hNext.2.2, fun _ _ =>
          .inr (.inl (by rw [lastKind?_concat, hDot]))⟩
      refine (payloadParser_reads parts hDot hRooted fun hFront hNext => ?_).map.imp
        (fun moved hMoved => ?_) id
      · subst hFront
        obtain ⟨b, hNext⟩ := hNext
        exact ⟨hPrefix, hPart.pauses (by simpa using hUsed) (by simp [Kind.AfterValue, hNext])⟩
      rcases hMoved with rfl | hEnclosed
      · have hWhole : cut.Part Kind.AfterValue (behind ++ ([t] ++ [u])) [v] := by simpa using hPart
        simpa using hWhole.prepend (hOne.append (.one (by simp [Kind.IsPlain, hDot])))
      · simpa using (Part.of_enclosed hEnclosed).prepend hPrefix

theorem objectParser_reads (typeName : Option String)
    (rooted : o.kind = .mark (.opening .brace) → Rooted (behind ++ [o])) :
    cut.Reads behind (o :: front) (objectParser typeName value) (objectParser typeName value)
      Enclosed False :=
  .here (Entry.blockParser_reads parts rooted).map

theorem wordParser_reads {text : String} (word : t.kind = .word text)
    (before : BeforeValue behind) :
    cut.Reads behind (t :: front) (wordParser text value) (wordParser text value)
      (cut.Part Kind.AfterValue behind) (cut.Halts (t :: front)) := by
  have hOne : Balanced [t] := .one (by simp [Kind.IsPlain, word])
  have hLiteral : text ∈ ["true", "false", "null"] → cut.Part Kind.AfterValue behind [t] := by
    intro hText
    refine .of_token (by simp [Kind.IsPlain, word]) (by simp [word]) (by simp [word]) ?_
    rw [word]
    exact fun hNext => ⟨hNext.1, hNext.2.1, hNext.2.2, fun _ _ => .inl hText⟩
  simp only [wordParser]
  split
  · next h => exact .taken (hLiteral (by simp [h]))
  split
  · next h => exact .taken (hLiteral (by simp [h]))
  split
  · next h => exact .taken (hLiteral (by simp [h]))
  next hTrue hFalse hNull =>
  have hOther : text ∉ ["true", "false", "null"] := by simp [hTrue, hFalse, hNull]
  cases front with
  | nil =>
      refine .nextKind_cut ?_
      have hRefused : ∀ p : Parser Form,
          (cut.next.kind = .mark .dot ∨ ∃ b, cut.next.kind = .mark (.opening b)) →
          cut.Reads behind [t] p (Parser.unexpected .value) (cut.Part Kind.AfterValue behind)
            (cut.Halts [t]) := by
        intro p hNext
        refine .of_refused (fun c => ⟨_, rfl, ?_⟩) fun hUsed => ?_
        · simp [Diagnostic.IsUnbalanced, Cause.code, SyntaxFault.code]
        · rw [hUsed, pauses_concat, word]
          exact before.not_pausesAt hOther hNext
      split
      · next hNext _ => exact hRefused _ (.inr ⟨_, hNext⟩)
      · next hNext => exact hRefused _ (.inl hNext)
      · next hNext => exact hRefused _ (.inr ⟨_, hNext⟩)
      · exact .of_unexpected
  | cons u front =>
      refine .nextKind ?_
      split
      · exact extendedParser_reads _ word before
      · exact variantParser_reads parts word before.rooted
      · next hBrace =>
        refine .advance ((objectParser_reads parts (some text) fun _ => ?_).imp
          (fun _ hEnclosed => (Part.of_enclosed hEnclosed).cons hOne) False.elim)
        exact (before.rooted.append hOne.isSome).opening hBrace
      · exact .of_unexpected

/-- The values of an array. -/
theorem arrayLoop : cut.Loop .square o Rooted Kind.AfterValue fun _ => value where
  notRound := by simp
  keeps _ _ rooted balanced := rooted.append balanced.isSome
  closing := by simp [Kind.AfterValue]
  comma := by simp [Kind.AfterValue]
  starts _ := parts.starts
  each _ _ _ _ rooted innermost rests := parts.reads
    (.of_block rooted (not_awaitsArgument rests.lastKind?_ne.2.2) rests.lastKind?_ne.2.1 innermost
      (by simp))

theorem parser_reads (before : BeforeValue behind) :
    cut.Reads behind (t :: front) (Form.parser value) (Form.parser value)
      (cut.Part Kind.AfterValue behind) (cut.Halts (t :: front)) := by
  refine .kind ?_
  cases hKind : t.kind with
  | quoted text =>
      refine .taken (.of_token (by simp [Kind.IsPlain, hKind]) (by simp [hKind]) (by simp [hKind])
        fun _ => ?_)
      simpa [hKind, PausesAt] using before.noArgument
  | integer n =>
      exact .taken (.of_token (by simp [Kind.IsPlain, hKind]) (by simp [hKind]) (by simp [hKind])
        fun _ => by simp [hKind, PausesAt])
  | fraction text =>
      dsimp only
      split
      · exact .taken (.of_token (by simp [Kind.IsPlain, hKind]) (by simp [hKind]) (by simp [hKind])
          fun _ => by simp [hKind, PausesAt])
      · exact .of_unexpected
  | word text => exact wordParser_reads parts hKind before
  | mark m =>
      cases m with
      | opening b =>
          cases b with
          | square =>
              have hBlock : cut.Reads behind (t :: front) (Parser.block .square fun _ => value)
                  (Parser.block .square fun _ => value) Enclosed False :=
                .block (fun _ => arrayLoop parts) (fun _ => before.rooted.opening hKind)
                  fun _ => before.rooted.not_declaring
              exact hBlock.map.imp (fun _ => .of_enclosed) False.elim
          | brace =>
              exact (objectParser_reads parts none fun _ => before.rooted.opening hKind).imp
                (fun _ => .of_enclosed) False.elim
          | round => exact .of_unexpected
      | _ => exact .of_unexpected
  | endOfInput => exact .of_unexpected

omit parts in
theorem afterValue_of_reads {c d : Cursor} {form : Form}
    (reads : Form.parser value c = .ok (form, d)) : c.kind.AfterValue := by
  have hStop : ∀ m : Mark, m = .colon ∨ m = .question ∨ m = .dot → c.kind ≠ .mark m := by
    rintro m hMark hKind
    have hRun : Form.parser value c = Parser.unexpected .value c := by
      obtain ⟨file, ⟨k, position⟩, later⟩ := c
      obtain rfl : k = .mark m := hKind
      rcases hMark with rfl | rfl | rfl <;> rfl
    simp [hRun] at reads
  exact ⟨hStop _ (by simp), hStop _ (by simp), hStop _ (by simp)⟩

end Form

/-- By induction on the room for nesting, as each part of a value is read one level deeper. -/
theorem Node.parserAt_reads (room : Nat) : cut.ReadsValue (Node.parserAt room) := by
  induction room with
  | zero =>
      exact ⟨fun _ => .of_stops fun c a d hRun => by simp [parserAt] at hRun,
        stops_here fun _ => stops_fail (by simp [SyntaxFault.code]),
        fun c a d hRun => by simp [parserAt] at hRun⟩
  | succ room ih =>
      refine ⟨fun before => .here (Form.parser_reads ih before).map, ?_, fun c a d hRun => ?_⟩
      · exact stops_here fun _ => (stops_kind stops_unexpected).bind
      · obtain ⟨form, e, hForm, -⟩ := bind_eq_ok.1
          (show (Form.parser (parserAt room) >>= fun form => pure ⟨form, c.span⟩) c = .ok (a, d)
            from hRun)
        exact Form.afterValue_of_reads hForm

end TypedConfig
