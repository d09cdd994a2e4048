import TypedConfig.Proofs.Comparison.Documents
import TypedConfig.Proofs.Inclusion.Exactness
import TypedConfig.Proofs.Inclusion.Paths
/-!
Putting two sets of files together that are alike: the same files in the same order, and what they
contribute is the same up to places, or both runs stop for reasons of the same code.
-/
namespace TypedConfig

/-! ### Content -/

theorem map_key_eq {entries others : List Entry}
    (varies : List.Forall₂ (Entry.Varies .layout) entries others) :
    entries.map Entry.key = others.map Entry.key := by
  rw [map_eq_map_iff_forall₂]
  refine varies.imp fun entry entry' varies => ?_
  cases varies
  rfl

theorem map_name_eq {ds others : List Declaration}
    (same : ds.map Declaration.unplaced = others.map Declaration.unplaced) :
    ds.map Declaration.name = others.map Declaration.name := by
  have hNames := congrArg (List.map Declaration.name) same
  rw [List.map_map, List.map_map] at hNames
  exact hNames

namespace Content

variable {before after before' after' : Content}

theorem varies_empty : empty.Varies empty := ⟨rfl, rfl, .nil⟩

theorem varies_own {Q : String → String → Prop} {file : Path} {document document' : Document}
    (varies : Document.Varies Q document document') :
    (own file document).Varies (own file document') :=
  ⟨rfl, varies.declarations, varies.entries⟩

theorem Varies.beside (left : before.Varies before') (right : after.Varies after') :
    (before.beside after).Varies (before'.beside after') := by
  refine ⟨?_, ?_, List.rel_append left.entries right.entries⟩
  · simp only [Content.beside, left.files, right.files]
  · simp only [Content.beside, List.map_append, left.declarations, right.declarations]

/-- Something is repeated in both, and it is a name in both or a key in both. -/
theorem Varies.repetition? {content content' : Content} (varies : content.Varies content') :
    Option.Rel (fun d e => d.cause.code = e.cause.code) content.repetition?
      content'.repetition? := by
  have hNames : firstRepeat? Declaration.name content.declarations = none ↔
      firstRepeat? Declaration.name content'.declarations = none := by
    rw [firstRepeat?_eq_none_iff, firstRepeat?_eq_none_iff, map_name_eq varies.declarations]
  have hKeys : firstRepeat? Entry.key content.entries = none ↔
      firstRepeat? Entry.key content'.entries = none := by
    rw [firstRepeat?_eq_none_iff, firstRepeat?_eq_none_iff, map_key_eq varies.entries]
  rw [Content.repetition?, Content.repetition?]
  generalize firstRepeat? Declaration.name content.declarations = name? at hNames ⊢
  generalize firstRepeat? Declaration.name content'.declarations = name'? at hNames ⊢
  generalize firstRepeat? Entry.key content.entries = key? at hKeys ⊢
  generalize firstRepeat? Entry.key content'.entries = key'? at hKeys ⊢
  cases name? with
  | some pair =>
      cases name'? with
      | some pair' => exact .some rfl
      | none => cases hNames.2 rfl
  | none =>
      obtain rfl := hNames.1 rfl
      cases key? with
      | some pair =>
          cases key'? with
          | some pair' => exact .some rfl
          | none => cases hKeys.2 rfl
      | none =>
          obtain rfl := hKeys.1 rfl
          exact .none

theorem paste_alike (left : before.Varies before') (right : after.Varies after') :
    EndsAlike Varies (before.paste after) (before'.paste after') := by
  have hBoth := left.beside right
  have hRepeated := hBoth.repetition?
  rw [paste_eq, paste_eq]
  generalize (before.beside after).repetition? = d? at hRepeated ⊢
  generalize (before'.beside after').repetition? = e? at hRepeated ⊢
  cases hRepeated with
  | none => exact .ok hBoth
  | some code => exact .error code

end Content

/-! ### Files -/

theorem Document.parse_alike {directory : Path} {source other : String}
    (alike : Token.ScanAlike directory source other) (file file' : String) :
    EndsAlike (Document.Varies directory.Together) (parse file source) (parse file' other) :=
  (alike file file').bind fun _ _ same =>
    ofTokens_alike (Q := directory.Together) (fun _ => rfl) same

namespace Library

variable {lib other : Library}

theorem Alike.locate (alike : lib.Alike other) {p q : Path} (same : p.normalize = q.normalize) :
    (∃ fault fault', lib.locate p = .error fault ∧ other.locate q = .error fault') ∨
      ∃ file source source', lib.locate p = .ok (file, source) ∧
        other.locate q = .ok (file, source') ∧ Token.ScanAlike file.directory source source' := by
  have hTexts := alike.texts p.normalize
  rw [Library.locate, Library.locate, find?, find?, ← same]
  generalize lib.files.lookup p.normalize = source? at hTexts ⊢
  generalize other.files.lookup p.normalize = source'? at hTexts ⊢
  cases hTexts with
  | none => exact .inl ⟨_, _, rfl, rfl⟩
  | some hAlike => exact .inr ⟨_, _, _, rfl, rfl, hAlike⟩

theorem Alike.target (alike : lib.Alike other) {directory : Path} {i j : String}
    (together : directory.Together i j) :
    (lib.target directory i).normalize = (other.target directory j).normalize := by
  rw [Library.target, Library.target, ← alike.storage]
  cases lib.storage with
  | memory => exact congrArg Path.normalize together
  | disk => exact together

/-- By induction on the files that are not yet visited, and for each file on its directives: each
step gives the same file, or fails in both runs. -/
theorem Alike.expand (alike : lib.Alike other) {chain : List Path} {directory : Path}
    {before before' : Content} {directives directives' : List Include}
    (together : List.Forall₂ (fun d d' => directory.Together d.path d'.path) directives directives')
    (passed : before.Varies before') :
    EndsAlike Content.Varies (lib.expand chain directory before directives)
      (other.expand chain directory before' directives') := by
  induction hUnvisited : lib.unvisited chain using Nat.strongRecOn generalizing
    chain directory before before' directives directives' with
  | _ n ih =>
      induction together generalizing before before' with
      | nil =>
          rw [Library.expand, Library.expand]
          exact .ok passed
      | cons first _ ihDirectives =>
          rw [expand_cons, expand_cons]
          rcases alike.locate (alike.target first) with
            ⟨fault, fault', hLeft, hRight⟩ | ⟨file, source, source', hLeft, hRight, hTexts⟩
          · simp only [hLeft, hRight]
            exact .error rfl
          · simp only [hLeft, hRight]
            split
            · exact .error rfl
            · next hFresh =>
              have hLess := Library.unvisited_lt hLeft hFresh
              refine (Document.parse_alike hTexts _ _).bind fun d d' hDocument => ?_
              refine (ih _ (hUnvisited ▸ hLess) hDocument.includes Content.varies_empty rfl).bind
                fun below below' hBelow => ?_
              refine (Content.paste_alike hBelow (Content.varies_own hDocument)).bind
                fun own own' hOwn => ?_
              exact (Content.paste_alike passed hOwn).bind fun _ _ hPasted =>
                ihDirectives hPasted

end Library

end TypedConfig
