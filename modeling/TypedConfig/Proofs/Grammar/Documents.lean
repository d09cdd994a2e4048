import TypedConfig.Document.Parser
import TypedConfig.Proofs.Grammar.Declarations
import TypedConfig.Proofs.Grammar.Values
/-!
The parser of a whole file accepts exactly the files of the grammar and builds what the grammar says
that they stand for.
-/
namespace TypedConfig

open TypedConfig.Parser TypedConfig.Production

variable {file : String}

namespace Include

theorem parser_accepts : Accepts file Include.parser (Include.Derives file) := by
  refine (Accepts.atHere fun span => Accepts.bind (.mark _) fun _ => Accepts.onKind
    (S := fun k input directive rest => k = .word "include" ∧ ∃ path v,
      Token.past input = v :: rest ∧ v.kind = .quoted path ∧ directive = ⟨path, span⟩)
      fun k => ?_).congr fun input directive rest => ?_
  · split
    · refine (Accepts.behind (Accepts.map (Include.mk · span) .quoted)).congr fun _ _ _ => ?_
      constructor
      · rintro ⟨path, rfl, v, hPast, hQuoted⟩
        exact ⟨rfl, path, v, hPast, hQuoted, rfl⟩
      · rintro ⟨-, path, v, hPast, hQuoted, rfl⟩
        exact ⟨path, rfl, v, hPast, hQuoted⟩
    · next hOther => exact Accepts.unexpected.congr fun _ _ _ => ⟨False.elim, fun h => hOther h.1⟩
  · constructor
    · rintro ⟨t, later, rfl, _, _, ⟨_, heq, hMark⟩, u, _, rfl, hInclude, path, v, hPast, hQuoted, rfl⟩
      obtain ⟨rfl, rfl⟩ := List.cons.inj heq
      rw [Token.past_cons (by simp [hInclude])] at hPast
      exact hPast ▸ .intro hMark hInclude hQuoted
    · rintro ⟨hMark, hInclude, hQuoted⟩
      exact ⟨_, _, rfl, (), _, ⟨_, rfl, hMark⟩, _, _, rfl, hInclude, _, _, by simp [hInclude],
        hQuoted, rfl⟩

theorem begins_derives {input rest : List Token} {directive : Include}
    (h : Include.Derives file input directive rest) :
    ∃ t later, input = t :: later ∧ t.kind = .mark .hash ∧ Token.Leaves later rest := by
  obtain ⟨mark, word, quoted⟩ := h
  exact ⟨_, _, rfl, mark, .cons (by simp [word]) (.cons (by simp [quoted]) (.refl _))⟩

end Include

theorem Node.parser_accepts : Accepts file Node.parser (Node.Derives file maxNesting) :=
  (Node.parserAt_accepts maxNesting).1

/-- The root object. -/
theorem Root.parser_accepts : Accepts file Root.parser fun input root rest =>
    ∃ t later entries, input = t :: later ∧ root = ⟨entries, t.span file⟩ ∧
      Entry.Block file (Node.Derives file maxNesting) input entries rest := by
  have hBlock : Accepts file (Entry.blockParser Node.parser)
      (Entry.Block file (Node.Derives file maxNesting)) := Entry.blockParser_accepts Node.parser_accepts
  refine (Accepts.atHere fun span => Accepts.onKind (S := fun k input root rest =>
    k = .mark (.opening .brace) ∧ ∃ entries, root = ⟨entries, span⟩ ∧
      Entry.Block file (Node.Derives file maxNesting) input entries rest) fun k => ?_).congr
        fun input root rest => ?_
  · split
    · exact (Accepts.map (Root.mk · span) hBlock).congr (by simp)
    · exact Accepts.unexpected.congr (by simp)
    · next hOther _ => exact Accepts.unexpected.congr fun _ _ _ => ⟨False.elim, fun h => hOther h.1⟩
  · constructor
    · rintro ⟨t, later, rfl, _, _, heq, -, entries, rfl, block⟩
      exact ⟨t, later, entries, rfl, rfl, block⟩
    · rintro ⟨t, later, entries, rfl, rfl, block⟩
      obtain ⟨⟨opening, -⟩, -⟩ := id block
      exact ⟨_, _, rfl, _, _, rfl, opening, entries, rfl, block⟩

namespace Document

theorem endParser_accepts : Accepts file endParser fun input _ rest =>
    rest = input ∧ ∃ last later, input = last :: later ∧ last.kind = .endOfInput := by
  refine (Accepts.onKind (S := fun k input _ rest => k = .endOfInput ∧ rest = input)
    fun k => ?_).congr fun input _ rest => ?_
  · split
    · exact (Accepts.pure ()).congr (by simp)
    · exact (Accepts.ignoringHere fun _ => Accepts.fail).congr (by simp)
    · next hEnd _ => exact Accepts.unexpected.congr fun _ _ _ => ⟨False.elim, fun h => hEnd h.1⟩
  · constructor
    · rintro ⟨last, later, rfl, hEnd, rfl⟩
      exact ⟨rfl, last, later, rfl, hEnd⟩
    · rintro ⟨rfl, last, later, rfl, hEnd⟩
      exact ⟨last, later, rfl, hEnd, rfl⟩

/-- What a whole file is made of, up to the end of input that is left. -/
theorem parser_accepts : Accepts file Document.parser fun input document rest =>
    ∃ includes middle declarations t body entries last later,
      Many (Include.Derives file) input includes middle ∧
      Many (Declaration.Derives file) middle declarations (t :: body) ∧
      Entry.Block file (Node.Derives file maxNesting) (t :: body) entries rest ∧
      rest = last :: later ∧ last.kind = .endOfInput ∧
      document = ⟨includes, declarations, ⟨entries, t.span file⟩⟩ := by
  refine (Accepts.bind (.startingWith Include.parser_accepts fun _ _ _ => Include.begins_derives)
    fun includes => Accepts.bind
      (.startingWith Declaration.parser_accepts fun _ _ _ => Declaration.begins_derives)
      fun declarations => Accepts.bind Root.parser_accepts fun root =>
        Accepts.bind endParser_accepts fun _ => .pure _).congr fun input document rest => ?_
  constructor
  · rintro ⟨includes, middle, ⟨hIncludes, -⟩, declarations, _, ⟨hDeclarations, -⟩, _, _,
      ⟨t, body, entries, rfl, rfl, block⟩, _, _, ⟨rfl, last, later, hLast, ends⟩, rfl, rfl⟩
    exact ⟨includes, middle, declarations, t, body, entries, last, later, hIncludes, hDeclarations,
      block, hLast, ends, rfl⟩
  · rintro ⟨includes, middle, declarations, t, body, entries, last, later, hIncludes, hDeclarations,
      block, hLast, ends, rfl⟩
    obtain ⟨⟨opening, -⟩, -⟩ := id block
    -- a directive ends where a declaration or the root begins, and neither begins with its mark
    have hMiddle : ∃ u later, middle = u :: later ∧ u.kind ≠ .mark .hash := by
      cases hDeclarations with
      | done => exact ⟨t, body, rfl, by simp [opening]⟩
      | more first others =>
          obtain ⟨u, later, heq, mark, -⟩ := Declaration.begins_derives first
          exact ⟨u, later, heq, by simp [mark]⟩
    exact ⟨includes, middle, ⟨hIncludes, hMiddle⟩, declarations, _,
      ⟨hDeclarations, t, body, rfl, by simp [opening]⟩, _, _,
      ⟨t, body, entries, rfl, rfl, block⟩, (), _, ⟨rfl, last, later, hLast, ends⟩, rfl, rfl⟩

theorem ofTokens_cons_eq_ok_iff {t : Token} {later : List Token} {document : Document} :
    ofTokens file (t :: later) = .ok document ↔
      ∃ d, Document.parser ⟨file, t, later⟩ = .ok (document, d) := by
  have hFirst : ofTokens file (t :: later) = (Document.parser ⟨file, t, later⟩).map Prod.fst := rfl
  rw [hFirst]
  cases Document.parser ⟨file, t, later⟩ with
  | error e => simp [Except.map]
  | ok read => exact ⟨fun h => ⟨read.2, by cases h; rfl⟩, fun ⟨_, h⟩ => by cases h; rfl⟩

variable {tokens : List Token} {document : Document}

/-- What is read from closed tokens is derived from them, to the last one. -/
theorem derives_of_ofTokens (closed : Token.Closed tokens)
    (reads : ofTokens file tokens = .ok document) : Document.Derives file tokens document := by
  obtain ⟨t, later, rfl⟩ := List.exists_cons_of_ne_nil closed.ne_nil
  obtain ⟨d, hRun⟩ := ofTokens_cons_eq_ok_iff.1 reads
  obtain ⟨-, hR⟩ := (parser_accepts.run_iff ⟨file, t, later⟩ rfl closed _ _).1 hRun
  have hClosed := closed.of_leaves (parser_accepts.inside _ _ _ hR)
  obtain ⟨includes, middle, declarations, u, body, entries, last, after, hIncludes, hDeclarations,
    block, hLast, ends, rfl⟩ := hR
  rw [hLast] at hClosed block
  rw [hClosed.later_eq_nil ends] at block
  exact .intro hIncludes hDeclarations block ends

/-- What closed tokens derive is read from them. -/
theorem ofTokens_of_derives (closed : Token.Closed tokens)
    (derives : Document.Derives file tokens document) : ofTokens file tokens = .ok document := by
  obtain ⟨t, later, rfl⟩ := List.exists_cons_of_ne_nil closed.ne_nil
  obtain ⟨hIncludes, hDeclarations, block, ends⟩ := derives
  next middle body u last includes declarations entries =>
  obtain ⟨d, hFile, hLast⟩ := exists_cursor file (.singleton ends)
  refine ofTokens_cons_eq_ok_iff.2
    ⟨d, (parser_accepts.run_iff ⟨file, t, later⟩ rfl closed _ _).2 ⟨hFile, ?_⟩⟩
  exact ⟨includes, middle, declarations, u, body, entries, last, [], hIncludes, hDeclarations,
    hLast ▸ block, hLast, ends, rfl⟩

/-- On closed tokens the parser accepts exactly the files of the grammar, and builds the document
that the grammar derives. -/
theorem ofTokens_eq_ok_iff_derives (closed : Token.Closed tokens) :
    ofTokens file tokens = .ok document ↔ Document.Derives file tokens document :=
  ⟨derives_of_ofTokens closed, ofTokens_of_derives closed⟩

/-- A root object with one entry and a comma behind it is read as the grammar says. -/
theorem ofTokens_eq_ok_of_one_entry :
    let tokens : List Token :=
      [⟨.mark (.opening .brace), ⟨1, 1, 0⟩⟩, ⟨.word "on", ⟨1, 3, 2⟩⟩, ⟨.mark .colon, ⟨1, 5, 4⟩⟩,
        ⟨.word "true", ⟨1, 7, 6⟩⟩, ⟨.mark .comma, ⟨1, 11, 10⟩⟩,
        ⟨.mark (.closing .brace), ⟨1, 13, 12⟩⟩, ⟨.endOfInput, ⟨1, 14, 13⟩⟩]
    Token.Closed tokens ∧ ofTokens "main" tokens = .ok
      ⟨[], [], ⟨[⟨"on", ⟨"main", 1, 3⟩, ⟨.boolean true, ⟨"main", 1, 7⟩⟩⟩], ⟨"main", 1, 1⟩⟩⟩ := by
  intro tokens
  have hClosed : Token.Closed tokens := by
    iterate 6 refine .cons (by decide) ?_
    exact .singleton rfl
  refine ⟨hClosed, (ofTokens_eq_ok_iff_derives hClosed).2 ?_⟩
  have hValue : Node.Derives "main" maxNesting
      [⟨.word "true", ⟨1, 7, 6⟩⟩, ⟨.mark .comma, ⟨1, 11, 10⟩⟩,
        ⟨.mark (.closing .brace), ⟨1, 13, 12⟩⟩, ⟨.endOfInput, ⟨1, 14, 13⟩⟩]
      ⟨.boolean true, ⟨"main", 1, 7⟩⟩ _ := ⟨by simp [Token.span], .true rfl⟩
  exact .intro .done .done
    ⟨.intro rfl (.separated (.intro rfl rfl hValue) rfl (.close rfl)), by simp⟩ rfl

end Document

end TypedConfig
