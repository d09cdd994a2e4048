import Mathlib
import TypedConfig.Elaboration
import TypedConfig.Proofs.Printing.Retyping
import TypedConfig.Proofs.Typing.Exactness
/-!
Printing and reading again. The text of a checked document with its declarations is read as a
document that has the same declarations up to places, is checked as the same document, and is
printed as the same text.
-/
namespace TypedConfig

open Production Token

/-! ### Texts of whole documents -/

/-- Declarations one after the other, with empty lines behind them. -/
theorem Declaration.many_reads (file : String) {ds : List Declaration} (printable : ∀ d ∈ ds, d.Printable)
    (p : Position) (rest : List Char) :
    ∃ used ds', Spells file p (ds.flatMap fun d => d.source ++ ['\n', '\n']) rest used ∧
      ds'.map Declaration.unplaced = ds.map Declaration.unplaced ∧
      ∀ tokens, Many (Declaration.Derives file) (used ++ tokens) ds' tokens := by
  induction ds generalizing p with
  | nil => exact ⟨[], [], Spells.nil, rfl, fun _ => .done⟩
  | cons d ds ih =>
      have hBreak : ∀ q more, Spells file q ['\n', '\n'] more [] := fun q more =>
        Spells.append (Spells.newline 0) (Spells.newline 0)
      have hFirst : Reads file (Declaration.Derives file) False d.source _ :=
        Declaration.reads (printable d List.mem_cons_self)
      obtain ⟨used, d', hSpells, hSame, hDerives⟩ := hFirst p ('\n' :: '\n' ::
        ((ds.flatMap fun d => d.source ++ ['\n', '\n']) ++ rest)) (delimited_cons (by decide))
      obtain ⟨more, ds', hMore, hOthers, hMany⟩ :=
        ih (fun other mem => printable other (List.mem_cons_of_mem _ mem))
          ((p.after d.source).after ['\n', '\n'])
      refine ⟨used ++ more, d' :: ds', ?_, ?_, fun tokens => ?_⟩
      · rw [List.flatMap_cons, List.append_assoc]
        exact Spells.append hSpells (Spells.append (hBreak _ _) hMore)
      · rw [List.map_cons, List.map_cons, hSame, hOthers]
      · rw [List.append_assoc]
        exact .more (hDerives _ nofun) (hMany tokens)

/-- A text is read as the document that its tokens derive. -/
theorem Document.parse_of_derives {file source : String} {tokens : List Token} {document : Document}
    (scans : scan file source = .ok tokens) (derives : Document.Derives file tokens document) :
    Document.parse file source = .ok document := by
  rw [Document.parse, scans]
  exact Document.ofTokens_of_derives (scanFrom_sound scans).2 derives

/-- The text of a document and declarations is read as a document without directives. -/
theorem Configuration.source_reads {registry : Registry} {c : Configuration}
    (declarations : ∀ d ∈ registry.declarations, d.Printable)
    (printable : c.toValue.Printable (maxNesting + 1)) (file : String) :
    ∃ ds root, Document.parse file (c.render registry) = .ok ⟨[], ds, root⟩ ∧
      ds.map Declaration.unplaced = registry.declarations.map Declaration.unplaced ∧
      root.entries.map Entry.key = c.fields.map Prod.fst ∧
      List.Forall₂ Value.WrittenAs (c.fields.map Prod.snd) (root.entries.map Entry.value) := by
  obtain ⟨⟨-, hKeyed⟩, hParts⟩ := printable
  have hInside := Node.derives_inside file maxNesting
  obtain ⟨used, ds, hSpells, hSame, hMany⟩ := Declaration.many_reads file declarations
    .start (Layout.block 0 '{' '}' (Value.fieldSources 1 c.fields) ++ ['\n'] ++ [])
  have hRoot : Reads file (Entry.Block file (Node.Derives file maxNesting)) False _ _ :=
    Value.block_reads Value.reads 0 hKeyed hParts
  obtain ⟨more, entries, hMore, ⟨hKeys, hEach⟩, hBlock⟩ :=
    hRoot (Position.start.after (registry.declarations.flatMap fun d => d.source ++ ['\n', '\n']))
      ['\n'] (delimited_cons (by decide))
  obtain ⟨t, body, rfl⟩ := exists_cons_of_reads (Entry.block_isItem hInside) hBlock
  let final := Position.start.after (c.source registry)
  have hText : (c.render registry).toList = c.source registry := String.toList_ofList
  have hSource : Spells file .start (c.source registry) [] (used ++ ((t :: body) ++ [])) := by
    have hAll := Spells.append hSpells (Spells.append hMore (Spells.newline 0))
    rw [← List.append_assoc] at hAll
    exact hAll
  have hScan : scan file (c.render registry) =
      .ok (used ++ (t :: body ++ [⟨.endOfInput, final⟩])) := by
    have hEnd : scanFrom file final [] = .ok [⟨.endOfInput, final⟩] := by rw [scanFrom]
    have hTokens := hSource _ hEnd
    rw [List.append_nil, List.append_nil, List.append_assoc] at hTokens
    rw [scan, hText]
    exact hTokens
  have hDocument : Document.Derives file (used ++ (t :: body ++ [⟨.endOfInput, final⟩]))
      ⟨[], ds, ⟨entries, t.span file⟩⟩ :=
    .intro .done (hMany _) (hBlock _ False.elim) rfl
  exact ⟨ds, ⟨entries, t.span file⟩, Document.parse_of_derives hScan hDocument, hSame, hKeys, hEach⟩

/-! ### Registries -/

theorem names_eq_of_unplaced {ds others : List Declaration}
    (same : ds.map Declaration.unplaced = others.map Declaration.unplaced) :
    ds.map Declaration.name = others.map Declaration.name := by
  have hNames := congrArg (List.map Declaration.name) same
  simpa [Declaration.unplaced, Function.comp_def] using hNames

theorem Registry.Alike.render {registry other : Registry} (alike : registry.Alike other)
    (c : Configuration) : c.render other = c.render registry := by
  have hText : ∀ ds : List Declaration, (ds.flatMap fun d => d.source ++ ['\n', '\n']) =
      (ds.map Declaration.unplaced).flatMap fun d => d.source ++ ['\n', '\n'] := by
    intro ds
    simp [List.flatMap_map, Declaration.source_unplaced]
  rw [Configuration.render, Configuration.render, Configuration.source, Configuration.source,
    hText, hText registry.declarations, alike]

/-! ### Round trip -/

/-- A document without directives that is read from a path makes up a bundle by itself. -/
theorem Bundle.ofSource_eq_ok {path : Path} {source : String} {ds : List Declaration} {root : Root}
    (lib : Library) (parses : Document.parse path.text source = .ok ⟨[], ds, root⟩)
    (names : (ds.map Declaration.name).Nodup) (keys : (root.entries.map Entry.key).Nodup) :
    ∃ bundle, ofSource lib path source = .ok bundle ∧ bundle.declarations = ds ∧
      bundle.root = root := by
  let files : List (Path × Document) := [(path.normalize, ⟨[], ds, root⟩)]
  have hContent : Content.ofFiles files = ⟨[path.normalize], ds, root.entries⟩ := by
    simp [files, Content.ofFiles]
  refine ⟨⟨path, [path.normalize], ds, root⟩, ?_, rfl, rfl⟩
  rw [ofSource, parses]
  refine resolve_eq_ok_iff.2 ⟨files, ⟨[], .done, rfl⟩, ?_, ?_⟩
  · rw [hContent]
    exact ⟨names, keys⟩
  · rw [hContent]

/-- The text of a checked document with declarations, read at any path, is a document with the same
declarations up to places, and it is checked as the same document and printed as the same text. -/
theorem Configuration.render_reads_back {bundle : Bundle} {registry : Registry} {options : Options}
    {c : Configuration} (resolved : bundle.IsResolved)
    (parsed : ∀ d ∈ registry.declarations, d.IsParsed)
    (checks : bundle.check registry options = .ok c) (rereads : c.toValue.Rereads) (lib : Library)
    (path : Path) :
    ∃ reloaded again, Bundle.ofSource lib path (c.render registry) = .ok reloaded ∧
      reloaded.declarations.map Declaration.unplaced =
        registry.declarations.map Declaration.unplaced ∧
      Registry.build reloaded.declarations = .ok again ∧
      reloaded.check again options = .ok c ∧ c.render again = c.render registry := by
  obtain ⟨hResolved, hAcceptable⟩ := Bundle.check_eq_ok_iff.1 checks
  have hPrintable : c.toValue.Printable (maxNesting + 1) := printable_of_check checks resolved
  obtain ⟨ds, newRoot, hParse, hSame, hKeys, hEach⟩ := Configuration.source_reads
    (fun d mem => (parsed d mem).printable) hPrintable path.text
  have hNames : (ds.map Declaration.name).Nodup := by
    rw [names_eq_of_unplaced hSame]
    exact registry.nodup
  have hKeysNodup : (newRoot.entries.map Entry.key).Nodup := by
    rw [hKeys]
    exact hPrintable.1.2.1
  obtain ⟨reloaded, hSource, rfl, rfl⟩ := Bundle.ofSource_eq_ok lib hParse hNames hKeysNodup
  have hAlike : registry.Alike ⟨reloaded.declarations, hNames⟩ := hSame
  have hWritten : c.toValue.WrittenAs
      ⟨.object none reloaded.root.entries reloaded.root.span, reloaded.root.span⟩ :=
    .object hKeys hEach
  have hAgain := Node.retypes hAlike _ none c.toValue _ hAcceptable rereads hWritten
  exact ⟨reloaded, ⟨reloaded.declarations, hNames⟩, hSource, hSame, Registry.build_eq_ok hNames,
    Bundle.check_eq_ok_iff.2 ⟨hAlike.resolved hResolved, hAgain⟩, hAlike.render c⟩

/-- A URL that is written as a string for a declared field is printed as a URL and read back. -/
theorem Configuration.render_reads_back_of_declared_url :
    let url : Url := ⟨false, ⟨[], [], ['a', '.', 'b'], none⟩, ['/'], none, none⟩
    let site : Declaration := ⟨"Site", .record [⟨"home", .extended .url, false, ⟨"main", 1, 13⟩⟩],
      ⟨"main", 1, 1⟩⟩
    let written : Node := ⟨.object (some "Site")
      [⟨"home", ⟨"main", 1, 35⟩, ⟨.string "http://a.b", ⟨"main", 1, 41⟩⟩⟩] ⟨"main", 1, 34⟩,
      ⟨"main", 1, 29⟩⟩
    let root : Root := ⟨[⟨"my", ⟨"main", 1, 25⟩, written⟩], ⟨"main", 1, 24⟩⟩
    let bundle : Bundle := ⟨⟨"main"⟩, [⟨"main"⟩], [site], root⟩
    let registry : Registry := ⟨[site], List.nodup_singleton _⟩
    let c : Configuration := ⟨[("my", .object (some "Site") [("home", .url url)])]⟩
    bundle.IsResolved ∧ (∀ d ∈ registry.declarations, d.IsParsed) ∧
      bundle.check registry .default = .ok c ∧ c.toValue.Rereads ∧
      ∃ reloaded again, Bundle.ofSource .empty ⟨"copy"⟩ (c.render registry) = .ok reloaded ∧
        reloaded.declarations.map Declaration.unplaced = [site.unplaced] ∧
        Registry.build reloaded.declarations = .ok again ∧
        reloaded.check again .default = .ok c ∧ c.render again = c.render registry := by
  intro url site written root bundle registry c
  let tokens : List Token :=
    [⟨.mark .atSign, ⟨1, 1, 0⟩⟩, ⟨.word "type", ⟨1, 2, 1⟩⟩, ⟨.word "Site", ⟨1, 7, 6⟩⟩,
      ⟨.mark (.opening .brace), ⟨1, 12, 11⟩⟩, ⟨.word "home", ⟨1, 13, 12⟩⟩,
      ⟨.mark .colon, ⟨1, 17, 16⟩⟩, ⟨.word "url", ⟨1, 19, 18⟩⟩,
      ⟨.mark (.closing .brace), ⟨1, 22, 21⟩⟩, ⟨.mark (.opening .brace), ⟨1, 24, 23⟩⟩,
      ⟨.word "my", ⟨1, 25, 24⟩⟩, ⟨.mark .colon, ⟨1, 27, 26⟩⟩, ⟨.word "Site", ⟨1, 29, 28⟩⟩,
      ⟨.mark (.opening .brace), ⟨1, 34, 33⟩⟩, ⟨.word "home", ⟨1, 35, 34⟩⟩,
      ⟨.mark .colon, ⟨1, 39, 38⟩⟩, ⟨.quoted "http://a.b", ⟨1, 41, 40⟩⟩,
      ⟨.mark (.closing .brace), ⟨1, 53, 52⟩⟩, ⟨.mark (.closing .brace), ⟨1, 54, 53⟩⟩,
      ⟨.endOfInput, ⟨1, 55, 54⟩⟩]
  have hScan : scan "main"
      "@type Site \x7bhome: url\x7d \x7bmy: Site \x7bhome: \"http://a.b\"\x7d\x7d" =
        .ok tokens := by
    cbv
  have hUrl : TypeExpr.Derives (127 + 1) (tokens.drop 6) (.extended .url) (tokens.drop 7) := by
    have hWord : TypeExpr.ofWord "url" = .extended .url := by decide
    rw [← hWord]
    exact .word rfl
  have hSite : Declaration.Derives "main" tokens site (tokens.drop 8) :=
    .record rfl rfl rfl
      ⟨.intro rfl (.plain (.required rfl rfl hUrl) (.close rfl)), List.nodup_singleton _⟩
  have hHome : Node.Derives "main" 127 (tokens.drop 15) ⟨.string "http://a.b", ⟨"main", 1, 41⟩⟩
      (tokens.drop 16) :=
    ⟨by rintro t ⟨⟩; rfl, .string rfl⟩
  have hMy : Node.Derives "main" maxNesting (tokens.drop 11) written (tokens.drop 17) := by
    refine ⟨by rintro t ⟨⟩; rfl, .annotated rfl (by simp [Form.IsLiteralWord]) ?_⟩
    exact ⟨.intro rfl (.plain (.intro rfl rfl hHome) (.close rfl)), List.nodup_singleton _⟩
  have hDocument : Document.Derives "main" tokens ⟨[], [site], root⟩ :=
    .intro .done (.more hSite .done)
      ⟨.intro rfl (.plain (.intro rfl rfl hMy) (.close rfl)), List.nodup_singleton _⟩ rfl
  have hParse := Document.parse_of_derives hScan hDocument
  have hParsed : Document.IsParsed ⟨[], [site], root⟩ := ⟨_, _, hParse⟩
  have hResolved : bundle.IsResolved :=
    ⟨.empty, ⟨"main"⟩, [], _, hParsed, by cbv⟩
  have hDeclared : ∀ d ∈ registry.declarations, d.IsParsed := fun d mem => ⟨_, hParsed, mem⟩
  have hChecks : bundle.check registry .default = .ok c := by cbv
  have hRereads : c.toValue.Rereads := by
    intro u hHolds
    cases hHolds with
    | part hSite hHolds =>
        obtain rfl := List.mem_singleton.1 hSite
        cases hHolds with
        | part hUrl hHolds =>
            obtain rfl := List.mem_singleton.1 hUrl
            cases hHolds with
            | self => cbv
            | part mem => cases mem
  exact ⟨hResolved, hDeclared, hChecks, hRereads,
    render_reads_back hResolved hDeclared hChecks hRereads .empty ⟨"copy"⟩⟩

end TypedConfig
