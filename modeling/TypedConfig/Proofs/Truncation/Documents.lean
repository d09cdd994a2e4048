import TypedConfig.Document.Parser
import TypedConfig.Proofs.Grammar.Documents
import TypedConfig.Proofs.Truncation.Values
/-!
Documents that are cut off inside of a block. The end of input is reported as an unbalanced block
where the innermost block could end, at its place and with the bracket that opens the block. At any
other cut it is reported as a token that does not fit, and not as an unbalanced block.
-/
namespace TypedConfig

open TypedConfig.Parser TypedConfig.Token TypedConfig.Cut

variable {cut : Cut} {behind front : List Token} {t : Token}

theorem Include.parser_reads (settled : Settled behind) :
    cut.Reads behind (t :: front) Include.parser Include.parser
      (fun moved => Settled (behind ++ moved)) False := by
  refine .here (Reads.bind (S := False) (Reads.mark fun hUsed _ => ?_)
    (fun _ _ others _ hMark => ?_) False.elim)
  · exact absurd (hUsed ▸ settled.1) cut.isOpen
  obtain ⟨u, rfl, hMark⟩ := hMark
  have hMarked : Balanced (behind ++ [u]) :=
    settled.1.append (.one (by simp [Kind.IsPlain, hMark]))
  cases others with
  | nil => exact .of_balanced hMarked
  | cons v others =>
      refine .kind ?_
      split
      · next hWord =>
        have hKeyword : Balanced (behind ++ [u] ++ [v]) :=
          hMarked.append (.one (by simp [Kind.IsPlain, hWord]))
        refine .advance (Reads.map ?_)
        cases others with
        | nil => exact .of_balanced hKeyword
        | cons w others =>
            refine .kind ?_
            cases hQuoted : w.kind with
            | quoted path =>
                refine .advance (.pure ?_)
                have hAll : behind ++ ([u] ++ v :: [w]) = behind ++ [u] ++ [v] ++ [w] := by simp
                rw [hAll]
                refine ⟨hKeyword.append (.one (by simp [Kind.IsPlain, hQuoted])), fun text => ?_⟩
                rw [lastKind?_concat, hQuoted]
                simp
            | _ => exact .of_unexpected
      · exact .of_unexpected

/-- The root object is the first block that is open behind the declarations. -/
theorem Root.parser_reads (settled : Settled behind) :
    cut.Reads behind front Root.parser Root.parser Enclosed False := by
  cases front with
  | nil => exact .of_balanced settled.1
  | cons t front =>
      refine .here (.kind ?_)
      split
      · next hBrace =>
        refine (Entry.blockParser_reads (Node.parserAt_reads maxNesting) fun hOpening => ?_).map
        exact ⟨behind, t, [], by simp, settled.1, settled.2, hOpening, rfl⟩
      · exact .of_unexpected
      · exact .of_unexpected

namespace Document

/-- Nothing is open behind the root object, and so the cut lies in front of its end. -/
theorem endParser_reads (balanced : Balanced behind)
    (inside : ∀ t ∈ cut.used, t.kind ≠ .endOfInput) :
    cut.Reads behind front endParser endParser (fun _ => False) False := by
  cases front with
  | nil => exact .of_balanced balanced
  | cons t front =>
      refine .of_used fun hUsed => .kind ?_
      split
      · next hEnd => exact absurd hEnd (inside t (by simp [hUsed]))
      · exact .of_stops fun c a d hRun => by simp at hRun
      · exact .of_unexpected

theorem parser_reads (inside : ∀ t ∈ cut.used, t.kind ≠ .endOfInput) :
    cut.Reads [] cut.used Document.parser Document.parser (fun _ => False) False := by
  have hSettled : Settled [] := ⟨.nil, by simp [lastKind?]⟩
  refine Reads.bind (S := False) (Reads.startingWith (fun _ settled => settled.1)
    (fun _ _ _ settled => Include.parser_reads settled) hSettled)
    (fun includes moved others _ hIncludes => ?_) False.elim
  refine Reads.bind (S := False) (Reads.startingWith (fun _ settled => settled.1)
    (fun _ _ _ settled => Declaration.parser_reads settled) hIncludes)
    (fun declarations moved' others' _ hDeclarations => ?_) False.elim
  refine Reads.bind (S := False) (Root.parser_reads hDeclarations)
    (fun root moved'' others'' _ hRoot => ?_) False.elim
  exact (endParser_reads (hDeclarations.1.append hRoot.balanced) inside).bind
    (fun _ _ _ _ hFalse => hFalse.elim) False.elim

variable {file : String} {used later : List Token} {next eof : Token} {document : Document}

/-- A document that is cut off where some block is open is refused. The innermost block is reported
as unclosed at the end of input if it could end at the cut; otherwise no bracket is reported. -/
theorem ofTokens_of_cut (reads : ofTokens file (used ++ next :: later) = .ok document)
    (inside : ∀ t ∈ used, t.kind ≠ .endOfInput) (isOpen : ¬ Balanced used)
    (ends : eof.kind = .endOfInput) :
    ∃ d, ofTokens file (used ++ [eof]) = .error d ∧
      (Pauses used next → ∃ b o, Innermost used b o ∧
        d = ⟨.grammatical (.unclosed b (o.span file)), eof.span file⟩) ∧
      (¬ Pauses used next → d.cause.code ≠ "UnbalancedBraces") := by
  cases used with
  | nil => exact absurd .nil isOpen
  | cons t front =>
      let cut : Cut := ⟨file, t :: front, next, later, eof, ends, isOpen⟩
      have hCut : cut.Reads [] (t :: front) Document.parser Document.parser (fun _ => False)
          False := parser_reads inside
      obtain ⟨d, hRun⟩ := ofTokens_cons_eq_ok_iff.1 reads
      have hRun' : ofTokens file (t :: (front ++ [eof])) =
          (Document.parser ⟨file, t, front ++ [eof]⟩).map Prod.fst := rfl
      have hCutoff := hCut rfl ⟨file, t, front ++ next :: later⟩ ⟨file, t, front ++ [eof]⟩
        ⟨rfl, rfl, rfl, rfl⟩ document d hRun
      rw [List.cons_append, hRun']
      generalize Document.parser ⟨file, t, front ++ [eof]⟩ = run at hCutoff
      cases hCutoff with
      | passed _ _ read => exact read.elim
      | short _ ended => exact ended.elim
      | @stopped e verdict =>
          refine ⟨e, rfl, fun hPauses => ?_, fun hPauses => ?_⟩
          · exact verdict.elim (fun h => h.2) fun h => absurd hPauses h.1
          · exact verdict.elim (fun h => absurd h.1 hPauses) fun h => h.2

/-- Whether tokens are accepted is told without the document. -/
theorem exists_ok_of_map {run : Except Diagnostic Document}
    (accepted : run.map (fun _ => ()) = .ok ()) : ∃ document, run = .ok document := by
  cases run with
  | error e => cases accepted
  | ok document => exact ⟨document, rfl⟩

/-- Why tokens are refused is told without a document. -/
theorem eq_error_of_map {run : Except Diagnostic Document} {d : Diagnostic}
    (refused : run.map (fun _ => ()) = .error d) : run = .error d := by
  cases run with
  | error e => exact congrArg Except.error (Except.error.inj refused)
  | ok document => cases refused

/-- An array is reported as unclosed behind a whole item. -/
theorem unclosed_of_cut_array :
    let used : List Token :=
      [⟨.mark (.opening .brace), ⟨1, 1, 0⟩⟩, ⟨.word "v", ⟨1, 3, 2⟩⟩, ⟨.mark .colon, ⟨1, 4, 3⟩⟩,
        ⟨.mark (.opening .square), ⟨1, 6, 5⟩⟩, ⟨.integer 1, ⟨1, 7, 6⟩⟩]
    let next : Token := ⟨.mark (.closing .square), ⟨1, 8, 7⟩⟩
    let later : List Token := [⟨.mark (.closing .brace), ⟨1, 10, 9⟩⟩, ⟨.endOfInput, ⟨1, 11, 10⟩⟩]
    let eof : Token := ⟨.endOfInput, ⟨1, 8, 7⟩⟩
    (∃ document, ofTokens "main" (used ++ next :: later) = .ok document) ∧
      (∀ t ∈ used, t.kind ≠ .endOfInput) ∧ ¬ Balanced used ∧ ofTokens "main" (used ++ [eof]) =
        .error ⟨.grammatical (.unclosed .square ⟨"main", 1, 6⟩), ⟨"main", 1, 8⟩⟩ := by
  intro used next later eof
  have hReads : ∃ document, ofTokens "main" (used ++ next :: later) = .ok document :=
    exists_ok_of_map (by with_unfolding_all rfl)
  have hInside : ∀ t ∈ used, t.kind ≠ .endOfInput := by decide
  have hOpen : ¬ Balanced used := by decide
  refine ⟨hReads, hInside, hOpen, ?_⟩
  obtain ⟨document, hReads⟩ := hReads
  have hEnds : eof.kind = .endOfInput := rfl
  obtain ⟨d, hRun, hPauses, -⟩ := ofTokens_of_cut hReads hInside hOpen hEnds
  obtain ⟨b, o, hInnermost, rfl⟩ := hPauses ⟨used.take 4, ⟨.integer 1, ⟨1, 7, 6⟩⟩, rfl, trivial⟩
  have hSquare : Innermost used .square ⟨.mark (.opening .square), ⟨1, 6, 5⟩⟩ :=
    ⟨used.take 3, [⟨.integer 1, ⟨1, 7, 6⟩⟩], rfl, rfl, by decide⟩
  obtain ⟨rfl, rfl⟩ := hInnermost.unique hSquare
  exact hRun

/-- Behind the bracket that opens a tuple the end of input is reported as no value, although the
tuple is open: not every document that is cut off inside of a block is reported as unbalanced. -/
theorem value_expected_of_cut_tuple :
    let used : List Token :=
      [⟨.mark (.opening .brace), ⟨1, 1, 0⟩⟩, ⟨.word "v", ⟨1, 3, 2⟩⟩, ⟨.mark .colon, ⟨1, 4, 3⟩⟩,
        ⟨.word "E", ⟨1, 6, 5⟩⟩, ⟨.mark .dot, ⟨1, 7, 6⟩⟩, ⟨.word "V", ⟨1, 8, 7⟩⟩,
        ⟨.mark (.opening .round), ⟨1, 9, 8⟩⟩]
    let missing : List Token :=
      [⟨.integer 1, ⟨1, 10, 9⟩⟩, ⟨.mark (.closing .round), ⟨1, 11, 10⟩⟩,
        ⟨.mark (.closing .brace), ⟨1, 13, 12⟩⟩, ⟨.endOfInput, ⟨1, 14, 13⟩⟩]
    let eof : Token := ⟨.endOfInput, ⟨1, 10, 9⟩⟩
    Closed (used ++ missing) ∧ (∃ document, ofTokens "main" (used ++ missing) = .ok document) ∧
      ¬ Balanced used ∧ ofTokens "main" (used ++ [eof]) =
        .error ⟨.grammatical (.unexpected .value .endOfInput), ⟨"main", 1, 10⟩⟩ := by
  intro used missing eof
  have hClosed : Closed (used ++ missing) := by
    iterate 10 refine .cons (by decide) ?_
    exact .singleton rfl
  have hReads : ∃ document, ofTokens "main" (used ++ missing) = .ok document :=
    exists_ok_of_map (by with_unfolding_all rfl)
  exact ⟨hClosed, hReads, by decide, eq_error_of_map (by with_unfolding_all rfl)⟩

end Document

end TypedConfig
