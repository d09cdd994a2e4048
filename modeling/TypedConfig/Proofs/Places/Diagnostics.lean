import TypedConfig.Proofs.Inclusion.Exactness
import TypedConfig.Proofs.Places.Checking
import TypedConfig.Proofs.Places.Reading
/-!
Every diagnostic points at a token of a file that takes part. Files that are put together keep the
places of each of them, and so a bundle has only places of tokens. By induction on the files that
are not yet visited, as the expansion goes.
-/
namespace TypedConfig

/-! ### Repetitions -/

/-- The two elements that repeat a key are of the list. -/
theorem mem_of_firstRepeat? {α κ : Type} [DecidableEq κ] {key : α → κ} {a b : α} {xs : List α}
    (found : firstRepeat? key xs = some (a, b)) : a ∈ xs ∧ b ∈ xs := by
  have hSubset := (sublist_of_firstRepeat? found).2.subset
  exact ⟨hSubset List.mem_cons_self, hSubset (List.mem_cons_of_mem _ List.mem_cons_self)⟩

/-! ### Pasting -/

variable {P : Span → Prop}

theorem Declaration.Placed.span {d : Declaration} (placed : d.Placed P) : P d.span :=
  (List.forall_mem_cons.1 placed).1

namespace Content

variable {before after content : Content}

theorem placed_empty : empty.Placed P := ⟨List.forall_mem_nil _, List.forall_mem_nil _⟩

theorem placed_own (file : Path) {document : Document} (placed : document.Placed P) :
    (own file document).Placed P :=
  ⟨placed.declarations, placed.entries⟩

theorem Placed.beside (left : before.Placed P) (right : after.Placed P) :
    (before.beside after).Placed P where
  declarations := List.forall_mem_append.2 ⟨left.declarations, right.declarations⟩
  entries := List.forall_mem_append.2 ⟨left.entries, right.entries⟩

/-- What is repeated in content is at fault where it comes again. -/
theorem Placed.repetition_within (placed : content.Placed P) {d : Diagnostic}
    (found : content.repetition? = some d) : d.Within "include" P := by
  rw [repetition?] at found
  split at found
  · next first again hFound =>
    cases found
    obtain ⟨hFirst, hAgain⟩ := mem_of_firstRepeat? hFound
    exact ⟨rfl, (placed.declarations again hAgain).span,
      List.forall_mem_singleton.2 (placed.declarations first hFirst).span⟩
  · split at found
    · next first again hFound =>
      cases found
      obtain ⟨hFirst, hAgain⟩ := mem_of_firstRepeat? hFound
      exact ⟨rfl, (placed.entries again hAgain).1,
        List.forall_mem_singleton.2 (placed.entries first hFirst).1⟩
    · cases found

end Content

/-! ### Putting files together -/

section

variable {lib : Library} {path : Path} {source : String}

/-- A diagnostic that ends the reading of a root before anything is checked. -/
structure Diagnostic.Stops (lib : Library) (path : Path) (source : String) (d : Diagnostic) :
    Prop where
  stage : d.cause.stage ∈ ["lex", "parse", "include"]
  points : d.Points lib path source

/-- A diagnostic about what could be read as tokens points at one of them. -/
theorem Diagnostic.Within.points {stage : String} {d : Diagnostic}
    (within : d.Within stage (Span.IsToken lib path source)) (other : stage ≠ "lex") :
    d.Points lib path source := by
  obtain ⟨hStage, hHere, hShown⟩ := within
  obtain ⟨cause, span⟩ := d
  refine ⟨?_, hShown⟩
  cases cause with
  | lexical fault => exact absurd hStage.symm other
  | _ => exact hHere

theorem Diagnostic.Within.stops {stage : String} {d : Diagnostic}
    (within : d.Within stage (Span.IsToken lib path source))
    (before : stage ∈ ["parse", "include"]) :
    d.Stops lib path source where
  stage := by
    rw [within.stage]
    exact List.mem_cons_of_mem _ before
  points := within.points (by rintro rfl; simp at before)

theorem Content.paste_outcome {before after : Content}
    (left : before.Placed (Span.IsToken lib path source))
    (right : after.Placed (Span.IsToken lib path source)) :
    Outcome (Diagnostic.Stops lib path source) (Content.Placed (Span.IsToken lib path source))
      (before.paste after) := by
  have hBoth := left.beside right
  rw [paste]
  split
  · next d hFound => exact (hBoth.repetition_within hFound).stops (by simp)
  · exact hBoth

/-- A text of a file that takes part is a document whose places are those of tokens, or the
diagnostic ends the reading. -/
theorem Library.TakesPart.parse_outcome {name text : String}
    (takes : lib.TakesPart path source name text) :
    Outcome (Diagnostic.Stops lib path source) (Document.Placed (Span.IsToken lib path source))
      (Document.parse name text) := by
  have hTokens : ∀ s, Token.StartsAt name text s → s.IsToken lib path source :=
    fun s starts => ⟨name, text, takes, starts⟩
  refine (Document.parse_outcome hTokens).mono fun d fails => ?_
  rcases fails with ⟨fault, hCause, hFails⟩ | hWithin
  · refine ⟨by simp [hCause, Cause.stage], ?_, by simp [hCause, Cause.mentions]⟩
    rw [hCause]
    exact ⟨name, text, takes, hFails⟩
  · exact hWithin.stops (by simp)

namespace Inclusion

/-- By induction on the files that are not yet visited, and for each file on its directives: each
file that is found takes part, as the directives lead to it. -/
theorem expand_outcome {document d : Document} {chain : List Path} {file : Path}
    {before : Content} {directives : List Include}
    (parses : Document.parse path.text source = .ok document) (visited : path.normalize ∈ chain)
    (reached : Reachable lib path.normalize document file)
    (found : document? lib path.normalize document file = some d)
    (written : ∀ directive ∈ directives, directive ∈ d.includes)
    (spans : ∀ directive ∈ directives, directive.span.IsToken lib path source)
    (placed : before.Placed (Span.IsToken lib path source)) :
    Outcome (Diagnostic.Stops lib path source) (Content.Placed (Span.IsToken lib path source))
      (lib.expand chain file.directory before directives) := by
  induction hUnvisited : lib.unvisited chain using Nat.strongRecOn generalizing
    chain file d before directives with
  | _ n ih =>
      induction directives generalizing before with
      | nil =>
          rw [Library.expand]
          exact placed
      | cons directive directives ihDirectives =>
          obtain ⟨hWritten, hOthersWritten⟩ := List.forall_mem_cons.1 written
          obtain ⟨hSpan, hOthersSpans⟩ := List.forall_mem_cons.1 spans
          have hStops : ∀ fault : IncludeFault, fault.mentions = [] →
              Diagnostic.Stops lib path source ⟨.inclusion fault, directive.span⟩ :=
            fun fault none => ⟨by simp [Cause.stage], hSpan, by simp [Cause.mentions, none]⟩
          rw [Library.expand_cons]
          cases hLocate : lib.locate (lib.target file.directory directive.path) with
          | error fault => exact hStops _ rfl
          | ok located =>
              obtain ⟨other, text⟩ := located
              dsimp only
              split
              · exact hStops _ rfl
              · next hFresh =>
                have hLess := Library.unvisited_lt hLocate hFresh
                obtain ⟨rfl, hLookup⟩ := Library.locate_eq_ok_iff.1 hLocate
                -- Only the root has a text that is not the library's, and it is in the chain.
                have hOther : target lib file directive ≠ path.normalize :=
                  target_ne_of_fresh visited hFresh
                have hEdge : Edge lib path.normalize document file (target lib file directive) :=
                  ⟨d, found, directive, hWritten, rfl⟩
                have hTakes : lib.TakesPart path source (target lib file directive).text text :=
                  .included parses (reached.tail hEdge) hOther hLookup
                refine hTakes.parse_outcome.bind fun included hParse hDocument => ?_
                have hExpand := ih _ (hUnvisited ▸ hLess) (List.mem_append_left _ visited)
                  (reached.tail hEdge) ((document?_eq_some_iff hOther).2 ⟨text, hLookup, hParse⟩)
                  (fun _ mem => mem) hDocument.includes Content.placed_empty rfl
                refine hExpand.bind fun below _ hBelow => ?_
                have hOwn := Content.placed_own (target lib file directive) hDocument
                refine (Content.paste_outcome hBelow hOwn).bind fun whole _ hWhole => ?_
                refine (Content.paste_outcome placed hWhole).bind fun pasted _ hPasted => ?_
                exact ihDirectives hOthersWritten hOthersSpans hPasted

end Inclusion

/-! ### Bundles -/

namespace Bundle

theorem resolve_outcome {document : Document}
    (parses : Document.parse path.text source = .ok document)
    (placed : document.Placed (Span.IsToken lib path source)) :
    Outcome (Diagnostic.Stops lib path source) (Bundle.Placed (Span.IsToken lib path source))
      (resolve lib path [] document) := by
  have hExpand : Outcome (Diagnostic.Stops lib path source)
      (Content.Placed (Span.IsToken lib path source))
      (lib.expand [path.normalize] path.normalize.directory .empty document.includes) :=
    Inclusion.expand_outcome parses (List.mem_singleton.2 rfl) .refl Inclusion.document?_root
      (fun _ mem => mem) placed.includes Content.placed_empty
  rw [resolve_eq]
  refine hExpand.bind fun included _ hIncluded => ?_
  have hOwn := Content.placed_own path.normalize placed
  refine (Content.paste_outcome hIncluded hOwn).bind fun content _ hContent => ?_
  exact ⟨hContent.declarations, hContent.entries⟩

/-- A bundle has only places of tokens, and so has a diagnostic instead of it. -/
theorem ofSource_outcome (lib : Library) (path : Path) (source : String) :
    Outcome (Diagnostic.Stops lib path source) (Bundle.Placed (Span.IsToken lib path source))
      (ofSource lib path source) := by
  have hRoot : lib.TakesPart path source path.text source := .root
  exact hRoot.parse_outcome.bind fun _ parses placed => resolve_outcome parses placed

/-- In a bundle no two declarations have the same name. -/
theorem nodup_of_ofSource {bundle : Bundle} (runs : ofSource lib path source = .ok bundle) :
    (bundle.declarations.map Declaration.name).Nodup := by
  rw [ofSource] at runs
  cases hParse : Document.parse path.text source with
  | error d =>
      rw [hParse] at runs
      cases runs
  | ok document =>
      rw [hParse] at runs
      obtain ⟨files, -, hUnrepeated, rfl⟩ := resolve_eq_ok_iff.1 runs
      exact hUnrepeated.1

/-- A bundle is checked against its own declarations, as no name is repeated. -/
theorem elaborate_eq_check {bundle : Bundle} {options : Options}
    (nodup : (bundle.declarations.map Declaration.name).Nodup) :
    bundle.elaborate options = bundle.check ⟨bundle.declarations, nodup⟩ options := by
  rw [elaborate, Registry.build_eq_ok nodup]
  rfl

/-- What is reported of a bundle points at its places. -/
theorem Placed.elaborate_within {P : Span → Prop} {bundle : Bundle} {options : Options}
    (placed : bundle.Placed P) (nodup : (bundle.declarations.map Declaration.name).Nodup)
    {errors : List Diagnostic} (fails : bundle.elaborate options = .error errors) :
    ∀ d ∈ errors, d.Within "validate" P := by
  have hReports : bundle.reports ⟨bundle.declarations, nodup⟩ options = errors := by
    rw [elaborate_eq_check nodup] at fails
    rw [reports, fails]
  rw [← hReports]
  exact reports_within placed.declarations placed.entries

end Bundle

end

namespace Configuration

variable {lib : Library} {options : Options} {path : Path} {source : String}

/-- A file that the library has is elaborated as its text, and otherwise it is reported that there
is none. -/
theorem load_eq : load lib options path = match lib.read path with
    | .ok source => ofSource lib options path source
    | .error fault => .error [⟨.inclusion (.notFound path.text fault), .fileStart path.text⟩] := by
  rw [load, Bundle.load]
  cases lib.read path <;> rfl

end Configuration

end TypedConfig
