import Mathlib
import TypedConfig.Proofs.Comparison.Checking
import TypedConfig.Proofs.Comparison.Inclusion
import TypedConfig.Proofs.Comparison.Lexing
import TypedConfig.Proofs.Comparison.Values
import TypedConfig.Proofs.Places.Diagnostics
/-!
Layout carries no meaning. Texts that are cut into tokens of the same kinds, wherever these stand,
are elaborated alike: with the same files around them they give the same configuration, or they fail
with the same codes. Places go into every node and into the wording of diagnostics, but nothing is
decided by them.
-/
namespace TypedConfig

/-! ### Declarations at other places -/

namespace Registry

variable {registry other : Registry}

theorem map_cause_unresolvedIn (type : TypeExpr) (span span' : Span) :
    (registry.unresolvedIn type span).map Diagnostic.cause =
      (registry.unresolvedIn type span').map Diagnostic.cause := by
  rw [unresolvedIn, unresolvedIn]
  split
  · split <;> rfl
  · rfl

theorem map_cause_unresolvedInFields (fields : List Field) :
    (registry.unresolvedInFields (fields.map Field.unplaced)).map Diagnostic.cause =
      (registry.unresolvedInFields fields).map Diagnostic.cause := by
  rw [unresolvedInFields, unresolvedInFields, List.map_flatMap, List.map_flatMap, List.flatMap_map]
  exact List.flatMap_congr fun f _ => map_cause_unresolvedIn f.type _ _

theorem map_cause_unresolvedInPayload (shape : Payload Slot Field) :
    (registry.unresolvedInPayload shape.unplaced).map Diagnostic.cause =
      (registry.unresolvedInPayload shape).map Diagnostic.cause := by
  cases shape with
  | unit => rfl
  | tuple slots =>
      simp only [Payload.unplaced, unresolvedInPayload, List.map_flatMap, List.flatMap_map]
      exact List.flatMap_congr fun s _ => map_cause_unresolvedIn s.type _ _
  | fields declared => exact map_cause_unresolvedInFields declared

/-- What is reported of a declaration does not depend on places. -/
theorem map_cause_unresolvedInBody (body : Declaration.Body) :
    (registry.unresolvedInBody body.unplaced).map Diagnostic.cause =
      (registry.unresolvedInBody body).map Diagnostic.cause := by
  cases body with
  | record fields => exact map_cause_unresolvedInFields fields
  | choice variants =>
      simp only [Declaration.Body.unplaced, unresolvedInBody, List.map_flatMap, List.flatMap_map]
      exact List.flatMap_congr fun v _ => map_cause_unresolvedInPayload v.shape

theorem map_cause_unresolved (registry : Registry) :
    registry.unresolved.map Diagnostic.cause =
      (registry.declarations.map Declaration.unplaced).flatMap fun d =>
        (registry.unresolvedInBody d.body).map Diagnostic.cause := by
  rw [unresolved, List.map_flatMap, List.flatMap_map]
  exact List.flatMap_congr fun d _ => (map_cause_unresolvedInBody d.body).symm

variable (same : registry.declarations.map Declaration.unplaced =
  other.declarations.map Declaration.unplaced)

include same

theorem agreesOn_of_unplaced : AgreesOn (fun _ => True) registry other :=
  ⟨fun name _ => map_find?_eq Declaration.unplaced Declaration.name (fun _ => rfl) same name,
    fun _ _ _ _ _ _ _ _ => trivial⟩

theorem unresolved_of_unplaced :
    registry.unresolved.map Diagnostic.cause = other.unresolved.map Diagnostic.cause := by
  have hContains : registry.contains = other.contains := by
    funext name
    have hFound := congrArg Option.isSome ((agreesOn_of_unplaced same).alike name trivial)
    rwa [Option.isSome_map, Option.isSome_map] at hFound
  rw [map_cause_unresolved, map_cause_unresolved, same, unresolvedInBody_eq hContains]

end Registry

/-- Registries of declarations that differ in places only are both built, or neither is. -/
theorem Registry.build_alike {ds es : List Declaration}
    (same : ds.map Declaration.unplaced = es.map Declaration.unplaced) :
    EndsAlike (fun registry other => registry.declarations.map Declaration.unplaced =
      other.declarations.map Declaration.unplaced) (build ds) (build es) := by
  have hNames := map_name_eq same
  rw [build.eq_def, build.eq_def]
  split
  · next hRepeat =>
    split
    · exact .error rfl
    · next hNone =>
      rw [firstRepeat?_eq_none_iff, ← hNames, ← firstRepeat?_eq_none_iff, hRepeat] at hNone
      cases hNone
  · next hNone =>
    split
    · next hRepeat =>
      rw [firstRepeat?_eq_none_iff, hNames, ← firstRepeat?_eq_none_iff, hRepeat] at hNone
      cases hNone
    · exact .ok same

/-! ### Bundles -/

namespace Configuration.SameOutcome

theorem of_ends {α β : Type} {R : α → β → Prop} {run : Except Diagnostic α}
    {other : Except Diagnostic β} {next : α → Except (List Diagnostic) Configuration}
    {next' : β → Except (List Diagnostic) Configuration} (ends : EndsAlike R run other)
    (others : ∀ a b, R a b → SameOutcome (next a) (next' b)) :
    SameOutcome (run.mapError ([·]) >>= next) (other.mapError ([·]) >>= next') := by
  cases ends with
  | ok related => exact others _ _ related
  | error code => exact .inr ⟨_, _, rfl, rfl, congrArg ([·]) code⟩

end Configuration.SameOutcome

namespace Bundle

variable {bundle other : Bundle}

theorem check_alike (varies : bundle.Varies .layout other) {registry registry' : Registry}
    (same : registry.declarations.map Declaration.unplaced =
      registry'.declarations.map Declaration.unplaced) (options : Options) :
    Configuration.SameOutcome (bundle.check registry options) (other.check registry' options) := by
  have hVerdict := verdict_agrees (Registry.agreesOn_of_unplaced same) options varies
  have hSites : Arranged False (Diagnostic.Varies .layout) registry.unresolved
      registry'.unresolved :=
    .of_forall₂ ((map_eq_map_iff_forall₂.1 (Registry.unresolved_of_unplaced same)).imp
      fun _ _ cause => ⟨cause, trivial⟩)
  have hAgrees := hVerdict.after hSites
  rw [check_eq, check_eq]
  rcases hAgrees.toExcept with ⟨c, d, hLeft, hRight, hVaries⟩ | ⟨hLeft, hRight⟩
  · rw [hLeft, hRight, hVaries.eq]
    exact .inl ⟨d, rfl, rfl⟩
  · refine .inr ⟨_, _, hLeft, hRight, ?_⟩
    rw [map_eq_map_iff_forall₂]
    exact (hAgrees.errors.forall₂ not_false).imp fun _ _ varies => congrArg Cause.code varies.1

theorem elaborate_alike (varies : bundle.content.Varies other.content) (options : Options) :
    Configuration.SameOutcome (bundle.elaborate options) (other.elaborate options) :=
  .of_ends (Registry.build_alike varies.declarations) fun _ _ same =>
    check_alike (.of_forall₂ varies.entries) same options

end Bundle

namespace Library

variable {lib other : Library} {path path' : Path}

theorem Alike.resolve (alike : lib.Alike other) (same : path.normalize = path'.normalize)
    {document document' : Document}
    (varies : Document.Varies path.normalize.directory.Together document document') :
    EndsAlike (fun bundle bundle' => bundle.content.Varies bundle'.content)
      (Bundle.resolve lib path [] document) (Bundle.resolve other path' [] document') := by
  simp only [Bundle.resolve, Bundle.identity_eq_normalize, ← same]
  refine (alike.expand varies.includes Content.varies_empty).bind fun below below' hBelow => ?_
  exact (Content.paste_alike hBelow (Content.varies_own varies)).bind fun _ _ hWhole => .ok hWhole

theorem Alike.ofSource (alike : lib.Alike other) (same : path.normalize = path'.normalize)
    {source source' : String}
    (texts : Token.ScanAlike path.normalize.directory source source') (options : Options) :
    Configuration.SameOutcome (Configuration.ofSource lib options path source)
      (Configuration.ofSource other options path' source') :=
  .of_ends ((Document.parse_alike texts _ _).bind fun _ _ varies => alike.resolve same varies)
    fun _ _ varies => Bundle.elaborate_alike varies options

theorem Alike.refl (lib : Library) : lib.Alike lib := by
  refine ⟨rfl, fun file => ?_⟩
  cases lib.files.lookup file with
  | none => exact .none
  | some source => exact .some (.refl _ source)

end Library

/-- Two texts of a root that are cut into tokens of the same kinds, which may stand at other places
and be spelled in other ways, with other whitespace and other comments between them, are elaborated
alike: to the same configuration, with its fields in the same order, or with the same codes of
diagnostics in the same order. -/
theorem Configuration.ofSource_of_other_layout (lib : Library) (options : Options) (path : Path)
    (source other : String) (tokens tokens' : List Token)
    (scans : Token.scan path.text source = .ok tokens)
    (scans' : Token.scan path.text other = .ok tokens')
    (same : tokens.map Token.kind = tokens'.map Token.kind) :
    SameOutcome (ofSource lib options path source) (ofSource lib options path other) :=
  (Library.Alike.refl lib).ofSource rfl (.of_kinds scans scans' same) options

/-- A comment, line breaks and a leading zero. -/
theorem Configuration.ofSource_of_commented_text :
    let source := "\x7bport: 80\x7d"
    let other := "\x7b // the port\n  port: 080\n\x7d"
    (∃ tokens tokens', Token.scan "main" source = .ok tokens ∧
      Token.scan "main" other = .ok tokens' ∧ tokens.map Token.kind = tokens'.map Token.kind) ∧
    SameOutcome (ofSource .empty .default ⟨"main"⟩ source)
      (ofSource .empty .default ⟨"main"⟩ other) := by
  intro source other
  let tokens : List Token :=
    [⟨.mark (.opening .brace), ⟨1, 1, 0⟩⟩, ⟨.word "port", ⟨1, 2, 1⟩⟩, ⟨.mark .colon, ⟨1, 6, 5⟩⟩,
      ⟨.integer 80, ⟨1, 8, 7⟩⟩, ⟨.mark (.closing .brace), ⟨1, 10, 9⟩⟩, ⟨.endOfInput, ⟨1, 11, 10⟩⟩]
  let tokens' : List Token :=
    [⟨.mark (.opening .brace), ⟨1, 1, 0⟩⟩, ⟨.word "port", ⟨2, 3, 16⟩⟩, ⟨.mark .colon, ⟨2, 7, 20⟩⟩,
      ⟨.integer 80, ⟨2, 9, 22⟩⟩, ⟨.mark (.closing .brace), ⟨3, 1, 26⟩⟩, ⟨.endOfInput, ⟨3, 2, 27⟩⟩]
  have hScan : Token.scan "main" source = .ok tokens := by cbv
  have hScan' : Token.scan "main" other = .ok tokens' := by cbv
  exact ⟨⟨tokens, tokens', hScan, hScan', rfl⟩,
    ofSource_of_other_layout .empty .default ⟨"main"⟩ source other tokens tokens' hScan hScan' rfl⟩

end TypedConfig
