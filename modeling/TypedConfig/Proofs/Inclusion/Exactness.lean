import Mathlib.Data.List.Flatten
import TypedConfig.Proofs.Inclusion.Graph
import TypedConfig.Proofs.Inclusion.Paths
/-!
Following directives pastes the post-order expansion, exactly. Repeated names and keys are looked
for each time content is pasted, which finds the repetitions of the whole and no others, since what
is pasted is part of the whole.
-/
namespace TypedConfig

section

variable {ε α β : Type} {x : Except ε α} {f : α → Except ε β}

theorem bind_eq_ok_iff {b : β} : (x >>= f) = .ok b ↔ ∃ a, x = .ok a ∧ f a = .ok b := by
  cases x <;> simp [bind, Except.bind]

theorem bind_eq_error_iff {e : ε} :
    (x >>= f) = .error e ↔ x = .error e ∨ ∃ a, x = .ok a ∧ f a = .error e := by
  cases x <;> simp [bind, Except.bind]

end

namespace Content

theorem repetition?_eq_none_iff {content : Content} :
    content.repetition? = none ↔ content.Unrepeated := by
  rw [repetition?, Unrepeated, ← firstRepeat?_eq_none_iff, ← firstRepeat?_eq_none_iff]
  cases firstRepeat? Declaration.name content.declarations with
  | some pair => simp
  | none => cases firstRepeat? Entry.key content.entries <;> simp

/-- Pasting looks for what is repeated in the whole. -/
theorem paste_eq (before after : Content) : before.paste after =
    (before.beside after).repetition?.elim (.ok (before.beside after)) .error := by
  rw [paste]
  split
  · next d hRepeated => simp [beside, hRepeated]
  · next hNone => simp [beside, hNone]

/-- Content is pasted exactly if nothing is then repeated. -/
theorem paste_eq_ok_iff {before after content : Content} :
    before.paste after = .ok content ↔
      content = before.beside after ∧ (before.beside after).Unrepeated := by
  rw [← repetition?_eq_none_iff, paste_eq]
  cases (before.beside after).repetition? with
  | some d => simp
  | none => simp [eq_comm]

theorem paste_eq_error_iff {before after : Content} {d : Diagnostic} :
    before.paste after = .error d ↔ (before.beside after).repetition? = some d := by
  rw [paste_eq]
  cases (before.beside after).repetition? <;> simp

theorem ofFiles_append {files others : List (Path × Document)} :
    ofFiles (files ++ others) = (ofFiles files).beside (ofFiles others) := by
  simp [ofFiles, beside]

theorem beside_assoc {first second third : Content} :
    (first.beside second).beside third = first.beside (second.beside third) := by
  simp [beside]

theorem beside_empty {content : Content} : content.beside (ofFiles []) = content := by
  simp [beside, ofFiles]

theorem empty_beside (content : Content) : empty.beside content = content := by
  simp [beside, empty]

/-- What is part of content without repetitions has none. -/
theorem Unrepeated.left {before after : Content} (unrepeated : (before.beside after).Unrepeated) :
    before.Unrepeated := by
  obtain ⟨hNames, hKeys⟩ := unrepeated
  simp only [beside, List.map_append] at hNames hKeys
  exact ⟨hNames.of_append_left, hKeys.of_append_left⟩

theorem Unrepeated.right {before after : Content} (unrepeated : (before.beside after).Unrepeated) :
    after.Unrepeated := by
  obtain ⟨hNames, hKeys⟩ := unrepeated
  simp only [beside, List.map_append] at hNames hKeys
  exact ⟨hNames.of_append_right, hKeys.of_append_right⟩

end Content

namespace Library

variable {lib : Library} {chain : List Path} {directory : Path} {before content : Content}

theorem expand_nil_eq_ok_iff :
    lib.expand chain directory before [] = .ok content ↔ content = before := by
  rw [expand, Except.ok.injEq, eq_comm]

/-- What one directive does, whether or not there is such a file. -/
theorem expand_cons {directive : Include} {others : List Include} :
    lib.expand chain directory before (directive :: others) =
      match lib.locate (lib.target directory directive.path) with
      | .error fault =>
        .error ⟨.inclusion (.notFound (lib.target directory directive.path).text fault),
          directive.span⟩
      | .ok (file, source) =>
        if chain.any file.same then
          .error ⟨.inclusion (.circular ((chain ++ [file]).map Path.shortName)), directive.span⟩
        else (do
          let document ← Document.parse file.text source
          let included ← lib.expand (chain ++ [file]) file.directory .empty document.includes
          let content ← included.paste (.own file document)
          let pasted ← before.paste content
          lib.expand chain directory pasted others) := by
  rw [expand]
  split
  · next fault hLocate => simp only [hLocate]
  · next file source hLocate =>
    simp only [hLocate]
    by_cases hSeen : chain.any file.same = true
    · rw [dif_neg (not_not.2 hSeen), if_pos hSeen]
    · rw [dif_pos hSeen, if_neg hSeen]
      cases Document.parse file.text source with
      | error d => rfl
      | ok document =>
          dsimp only [bind, Except.bind]
          cases lib.expand (chain ++ [file]) file.directory .empty document.includes with
          | error d => rfl
          | ok included =>
              dsimp only
              cases included.paste (.own file document) with
              | error d => rfl
              | ok content =>
                  dsimp only
                  cases before.paste content <;> rfl

/-- One directive: its file is found and not being expanded, it parses, and what it includes, the
file itself and the content before it are pasted. -/
theorem expand_cons_eq_ok_iff {directive : Include} {others : List Include} :
    lib.expand chain directory before (directive :: others) = .ok content ↔
      ∃ file source document included own pasted,
        lib.locate (lib.target directory directive.path) = .ok (file, source) ∧
        ¬ chain.any file.same = true ∧ Document.parse file.text source = .ok document ∧
        lib.expand (chain ++ [file]) file.directory .empty document.includes = .ok included ∧
        included.paste (.own file document) = .ok own ∧ before.paste own = .ok pasted ∧
        lib.expand chain directory pasted others = .ok content := by
  rw [expand_cons]
  cases hLocate : lib.locate (lib.target directory directive.path) with
  | error fault => simp
  | ok found =>
      obtain ⟨file, source⟩ := found
      by_cases hSeen : chain.any file.same = true
      · simp only [if_pos hSeen, reduceCtorEq, false_iff]
        rintro ⟨_, _, _, _, _, _, hSame, hFresh, -⟩
        cases hSame
        exact hFresh hSeen
      · simp only [if_neg hSeen, bind_eq_ok_iff]
        constructor
        · rintro ⟨document, hParse, included, hBelow, own, hOwn, pasted, hPaste, hOthers⟩
          exact ⟨file, source, document, included, own, pasted, rfl, hSeen, hParse, hBelow, hOwn,
            hPaste, hOthers⟩
        · rintro ⟨_, _, document, included, own, pasted, hSame, -, hParse, hBelow, hOwn, hPaste,
            hOthers⟩
          cases hSame
          exact ⟨document, hParse, included, hBelow, own, hOwn, pasted, hPaste, hOthers⟩

end Library

theorem Library.locate_eq_ok_iff {lib : Library} {path file : Path} {source : String} :
    lib.locate path = .ok (file, source) ↔
      file = path.normalize ∧ lib.files.lookup path.normalize = some source := by
  rw [locate, find?]
  cases lib.files.lookup path.normalize with
  | none => simp
  | some text => simp [eq_comm]

theorem Library.locate_eq_error_iff {lib : Library} {path : Path} {fault : FileFault} :
    lib.locate path = .error fault ↔
      fault = ⟨lib.storage, path.normalize⟩ ∧ lib.files.lookup path.normalize = none := by
  rw [locate, find?]
  cases lib.files.lookup path.normalize with
  | none => simp [eq_comm]
  | some text => simp

namespace Inclusion

open Content

variable {lib : Library} {root : Path} {document : Document}

theorem document?_eq_some_iff {file : Path} {d : Document} (other : file ≠ root) :
    document? lib root document file = some d ↔
      ∃ source, lib.files.lookup file = some source ∧ Document.parse file.text source = .ok d := by
  rw [document?, if_neg other, Option.bind_eq_some_iff]
  refine exists_congr fun source => and_congr_right fun _ => ?_
  cases Document.parse file.text source <;> simp [Except.toOption]

/-- A file that is not being expanded is not the root. -/
theorem not_mem_of_fresh {chain : List Path} {file : Path}
    (fresh : ¬ chain.any file.same = true) : file ∉ chain := fun mem =>
  fresh (List.any_eq_true.2 ⟨file, mem, beq_self_eq_true _⟩)

theorem target_ne_of_fresh {chain : List Path} {file : Path} {directive : Include}
    (visited : root ∈ chain) (fresh : ¬ chain.any (target lib file directive).same = true) :
    target lib file directive ≠ root := by
  rintro rfl
  exact not_mem_of_fresh fresh visited

theorem own_eq_ofFiles {file : Path} {d : Document} : own file d = ofFiles [(file, d)] := by
  simp [own, ofFiles]

/-- By induction on the files that are not yet visited, and for each file on its directives: what
is pasted is the post-order expansion, and nothing in it is repeated. -/
theorem expands_of_expand {chain : List Path} {file : Path} {before content : Content}
    {directives : List Include} (visited : root ∈ chain)
    (runs : lib.expand chain file.directory before directives = .ok content) :
    ∃ post, Expands lib root document file directives post ∧
      content = before.beside (ofFiles post) ∧ (before.Unrepeated → content.Unrepeated) := by
  induction hUnvisited : lib.unvisited chain using Nat.strongRecOn generalizing
    chain file before content directives with
  | _ n ih =>
      induction directives generalizing before with
      | nil =>
          rw [Library.expand_nil_eq_ok_iff] at runs
          exact ⟨[], .done, by rw [beside_empty, runs], fun h => runs ▸ h⟩
      | cons directive directives ihDirectives =>
          obtain ⟨other, source, d, included, pasted, whole, hLocate, hFresh, hParse, hBelow, hOwn,
            hPaste, hOthers⟩ := Library.expand_cons_eq_ok_iff.1 runs
          have hLess := Library.unvisited_lt hLocate hFresh
          obtain ⟨rfl, hLookup⟩ := Library.locate_eq_ok_iff.1 hLocate
          obtain ⟨below, hExpands, hIncluded, -⟩ := ih _ (hUnvisited ▸ hLess)
            (List.mem_append_left _ visited) hBelow rfl
          obtain ⟨later, hLater, rfl, hUnrepeated⟩ := ihDirectives hOthers
          rw [empty_beside] at hIncluded
          obtain ⟨hPasted, -⟩ := paste_eq_ok_iff.1 hOwn
          obtain ⟨hWhole, hNothing⟩ := paste_eq_ok_iff.1 hPaste
          have hOther : target lib file directive ≠ root := target_ne_of_fresh visited hFresh
          refine ⟨_, .paste ((document?_eq_some_iff hOther).2 ⟨source, hLookup, hParse⟩)
            hExpands hLater, ?_, fun _ => hUnrepeated (hWhole ▸ hNothing)⟩
          rw [hWhole, hPasted, hIncluded, own_eq_ofFiles, ← ofFiles_append, beside_assoc,
            ← ofFiles_append, List.append_assoc]
          rfl

/-- The files that are being expanded around a file: they lead to it, and the root is one. -/
structure Around (lib : Library) (root : Path) (document : Document) (chain : List Path)
    (file : Path) : Prop where
  root_mem : root ∈ chain
  normal : ∀ c ∈ chain, ∃ p : Path, c = p.normalize
  reachable : ∀ c ∈ chain, Reachable lib root document c
  leads : ∀ c ∈ chain, Relation.ReflTransGen (Edge lib root document) c file

/-- Nothing is expanded around the root. -/
theorem Around.here (path : Path) :
    Around lib path.normalize document [path.normalize] path.normalize where
  root_mem := List.mem_singleton.2 rfl
  normal := by simp
  reachable := by simp [Reachable, Relation.ReflTransGen.refl]
  leads := by simp [Relation.ReflTransGen.refl]

theorem Around.extend {chain : List Path} {file : Path} {directive : Include}
    (around : Around lib root document chain file)
    (edge : Edge lib root document file (target lib file directive)) :
    Around lib root document (chain ++ [target lib file directive]) (target lib file directive) where
  root_mem := List.mem_append_left _ around.root_mem
  normal := by
    intro c mem
    rcases List.mem_append.1 mem with mem | mem
    · exact around.normal c mem
    · exact ⟨_, List.mem_singleton.1 mem⟩
  reachable := by
    intro c mem
    rcases List.mem_append.1 mem with mem | mem
    · exact around.reachable c mem
    · rw [List.mem_singleton.1 mem]
      exact (around.leads root around.root_mem).tail edge
  leads := by
    intro c mem
    rcases List.mem_append.1 mem with mem | mem
    · exact (around.leads c mem).tail edge
    · rw [List.mem_singleton.1 mem]

/-- The files that are being expanded have normal paths, so a file that is one of them up to its
spelling is one of them. -/
theorem Around.mem_of_any {chain : List Path} {file : Path} {directive : Include}
    (around : Around lib root document chain file)
    (seen : chain.any (target lib file directive).same = true) :
    target lib file directive ∈ chain := by
  obtain ⟨c, mem, hSame⟩ := List.any_eq_true.1 seen
  obtain ⟨p, rfl⟩ := around.normal c mem
  have hEq : target lib file directive = p.normalize := Path.normalize_same_iff.1 hSame
  rw [hEq]
  exact mem

/-- A file that is being expanded already would be included by itself. -/
theorem Around.fresh (acyclic : Acyclic lib root document) {chain : List Path} {file : Path}
    {directive : Include} (around : Around lib root document chain file)
    (edge : Edge lib root document file (target lib file directive)) :
    ¬ chain.any (target lib file directive).same = true := by
  intro hSeen
  have hMem := around.mem_of_any hSeen
  exact acyclic _ (around.reachable _ hMem) (.tail' (around.leads _ hMem) edge)

/-- By induction on the expansion: no file of it is being expanded already, as that would make a
cycle, and no piece of it repeats anything, as the whole does not. -/
theorem expand_of_expands (acyclic : Acyclic lib root document) {chain : List Path} {file : Path}
    {before : Content} {directives : List Include} {post : List (Path × Document)}
    (expands : Expands lib root document file directives post)
    (around : Around lib root document chain file)
    (edges : ∀ directive ∈ directives, Edge lib root document file (target lib file directive))
    (unrepeated : (before.beside (ofFiles post)).Unrepeated) :
    lib.expand chain file.directory before directives = .ok (before.beside (ofFiles post)) := by
  induction expands generalizing chain before with
  | done => rw [Library.expand_nil_eq_ok_iff, beside_empty]
  | @paste file directive directives d below later found inner others ihInner ihOthers =>
      obtain ⟨hEdge, hEdges⟩ := List.forall_mem_cons.1 edges
      have hFresh := around.fresh acyclic hEdge
      have hOther := target_ne_of_fresh around.root_mem hFresh
      obtain ⟨source, hLookup, hParse⟩ := (document?_eq_some_iff hOther).1 found
      have hSplit : before.beside (ofFiles (below ++ (target lib file directive, d) :: later)) =
          (before.beside (ofFiles (below ++ [(target lib file directive, d)]))).beside
            (ofFiles later) := by
        rw [beside_assoc, ← ofFiles_append, List.append_assoc]
        rfl
      rw [hSplit] at unrepeated ⊢
      have hWhole := unrepeated.left
      have hOwn := hWhole.right
      have hBelow := (ofFiles_append ▸ hOwn).left
      rw [Library.expand_cons_eq_ok_iff]
      refine ⟨target lib file directive, source, d, ofFiles below,
        ofFiles (below ++ [(target lib file directive, d)]), _,
        Library.locate_eq_ok_iff.2 ⟨rfl, hLookup⟩, hFresh, hParse, ?_, ?_,
        paste_eq_ok_iff.2 ⟨rfl, hWhole⟩, ihOthers around hEdges unrepeated⟩
      · rw [← empty_beside (ofFiles below)]
        refine ihInner (around.extend hEdge) (fun other mem => ?_) ?_
        · exact ⟨d, found, other, mem, rfl⟩
        · rw [empty_beside]
          exact hBelow
      · rw [own_eq_ofFiles, paste_eq_ok_iff, ← ofFiles_append]
        exact ⟨rfl, hOwn⟩

theorem Expands.document?_of_mem {file : Path} {directives : List Include}
    {post : List (Path × Document)} (expands : Expands lib root document file directives post) :
    ∀ pair ∈ post, document? lib root document pair.1 = some pair.2 := by
  induction expands with
  | done => simp
  | paste found _ _ ihInner ihOthers =>
      intro pair mem
      rcases List.mem_append.1 mem with mem | mem
      · exact ihInner pair mem
      · rcases List.mem_cons.1 mem with rfl | mem
        · exact found
        · exact ihOthers pair mem

/-- What comes twice in a list without repetitions is nothing. -/
theorem eq_nil_of_sublist_nodup {α β : Type} {key : α → β} {part whole : List α}
    (nodup : (whole.map key).Nodup) (twice : (part ++ part).Sublist whole) : part = [] := by
  have hPart := (nodup.sublist (twice.map key))
  rw [List.map_append] at hPart
  cases part with
  | nil => rfl
  | cons a part =>
      have hDisjoint := List.disjoint_of_nodup_append hPart
      exact absurd (List.mem_cons_self) (hDisjoint (a := key a) List.mem_cons_self)

/-- A file that is listed twice contributes no declaration and no key. -/
theorem Listing.nothing_of_duplicate {files : List (Path × Document)}
    (listing : Listing lib root document files) (unrepeated : (ofFiles files).Unrepeated)
    {file : Path} {d : Document} (duplicate : List.Duplicate file (files.map Prod.fst))
    (found : document? lib root document file = some d) :
    d.declarations = [] ∧ d.root.entries = [] := by
  obtain ⟨below, expands, rfl⟩ := listing
  have hPairs : ∀ pair ∈ below ++ [(root, document)],
      document? lib root document pair.1 = some pair.2 := by
    intro pair mem
    rcases List.mem_append.1 mem with mem | mem
    · exact expands.document?_of_mem pair mem
    · rw [List.mem_singleton.1 mem]
      exact document?_root
  have hTwice : ([(file, d), (file, d)]).Sublist (below ++ [(root, document)]) := by
    obtain ⟨pairs, hSublist, hFiles⟩ := List.sublist_map_iff.1 (List.duplicate_iff_sublist.1 duplicate)
    have hSame : ∀ pair ∈ pairs, pair.1 = file → pair = (file, d) := by
      rintro ⟨_, e⟩ mem rfl
      rw [Option.some.inj (found.symm.trans (hPairs _ (hSublist.subset mem)))]
    obtain ⟨first, others, rfl, hFirst, hOthers⟩ := List.map_eq_cons_iff.1 hFiles.symm
    obtain ⟨second, none, rfl, hSecond, hNone⟩ := List.map_eq_cons_iff.1 hOthers
    obtain rfl := List.map_eq_nil_iff.1 hNone
    rw [hSame first (by simp) hFirst, hSame second (by simp) hSecond] at hSublist
    exact hSublist
  obtain ⟨hNames, hKeys⟩ := unrepeated
  constructor
  · refine eq_nil_of_sublist_nodup hNames ?_
    simpa [ofFiles] using hTwice.flatMap (·.2.declarations)
  · refine eq_nil_of_sublist_nodup hKeys ?_
    simpa [ofFiles] using hTwice.flatMap (·.2.root.entries)

end Inclusion

namespace Bundle

open Inclusion

theorem identity_eq_normalize {lib : Library} {path : Path} : identity lib path = path.normalize := by
  rw [identity, Library.canonical, Library.locate]
  cases lib.find? path <;> rfl

/-- The files that are being expanded while the directives of a file are followed: those around it,
and last the file itself unless it is one of them. -/
def entering (visited : List Path) (file : Path) : List Path :=
  if visited.any file.same then visited else visited ++ [file]

/-- What the files of a bundle contribute. -/
def content (bundle : Bundle) : Content :=
  ⟨bundle.files, bundle.declarations, bundle.root.entries⟩

/-- The bundle of a document that was read from a path, once it is put together. -/
def ofContent (path : Path) (document : Document) (content : Content) : Bundle :=
  ⟨path, content.files, content.declarations, ⟨content.entries, document.root.span⟩⟩

variable {lib : Library} {path : Path} {visited : List Path} {document : Document} {bundle : Bundle}

/-- What the directives include is pasted, and then the document itself. -/
theorem resolve_eq : resolve lib path visited document = (do
    let included ← lib.expand (entering visited path.normalize) path.normalize.directory .empty
      document.includes
    let content ← included.paste (.own path.normalize document)
    return ofContent path document content) := by
  rw [resolve, identity_eq_normalize]
  rfl

theorem resolve_eq_ok_iff_expand : resolve lib path visited document = .ok bundle ↔
    ∃ included content,
      lib.expand (entering visited path.normalize) path.normalize.directory .empty
        document.includes = .ok included ∧
      included.paste (.own path.normalize document) = .ok content ∧
      bundle = ofContent path document content := by
  simp only [resolve_eq, bind_eq_ok_iff, pure, Except.pure, Except.ok.injEq, exists_and_left,
    @eq_comm _ bundle]

/-- Resolving a document that nothing is expanded around pastes the listing of its files. -/
theorem resolve_eq_ok_iff :
    resolve lib path [] document = .ok bundle ↔
      ∃ files, Listing lib path.normalize document files ∧ (Content.ofFiles files).Unrepeated ∧
        bundle = ⟨path, (Content.ofFiles files).files, (Content.ofFiles files).declarations,
          ⟨(Content.ofFiles files).entries, document.root.span⟩⟩ := by
  rw [resolve_eq_ok_iff_expand]
  constructor
  · rintro ⟨included, content, hExpand, hPaste, rfl⟩
    obtain ⟨below, hBelow, rfl, -⟩ := expands_of_expand (List.mem_singleton.2 rfl) hExpand
    rw [own_eq_ofFiles, Content.empty_beside, Content.paste_eq_ok_iff, ← Content.ofFiles_append]
      at hPaste
    obtain ⟨rfl, hUnrepeated⟩ := hPaste
    exact ⟨_, ⟨below, hBelow, rfl⟩, hUnrepeated, rfl⟩
  · rintro ⟨files, ⟨below, hBelow, rfl⟩, hUnrepeated, rfl⟩
    obtain ⟨-, acyclic⟩ := complete_and_acyclic_of_expands hBelow
    refine ⟨_, _, expand_of_expands acyclic hBelow (.here path) (fun directive mem => ?_) ?_, ?_,
      rfl⟩
    · exact ⟨document, document?_root, directive, mem, rfl⟩
    · rw [Content.empty_beside]
      exact (Content.ofFiles_append ▸ hUnrepeated).left
    · rw [own_eq_ofFiles, Content.empty_beside, Content.paste_eq_ok_iff, ← Content.ofFiles_append]
      exact ⟨rfl, hUnrepeated⟩

/-- Resolving succeeds exactly if every reachable file is there and parses, no file includes itself,
and nothing in the listing of the files is repeated. The bundle is then the listing with what its
files contribute, so that a file which is listed twice contributes nothing. -/
theorem resolve_pastes_listing (lib : Library) (path : Path) (document : Document) :
    ((∃ bundle, resolve lib path [] document = .ok bundle) ↔
      Complete lib path.normalize document ∧ Acyclic lib path.normalize document ∧
        ∀ files, Listing lib path.normalize document files → (Content.ofFiles files).Unrepeated) ∧
    ∀ bundle, resolve lib path [] document = .ok bundle →
      ∃ files, Listing lib path.normalize document files ∧
        bundle = ⟨path, files.map Prod.fst, files.flatMap (·.2.declarations),
          ⟨files.flatMap (·.2.root.entries), document.root.span⟩⟩ ∧
        ∀ file d, List.Duplicate file bundle.files →
          document? lib path.normalize document file = some d →
            d.declarations = [] ∧ d.root.entries = [] := by
  constructor
  · constructor
    · rintro ⟨bundle, hRun⟩
      obtain ⟨files, ⟨below, hBelow, rfl⟩, hUnrepeated, -⟩ := resolve_eq_ok_iff.1 hRun
      obtain ⟨complete, acyclic⟩ := complete_and_acyclic_of_expands hBelow
      refine ⟨complete, acyclic, ?_⟩
      rintro files ⟨other, hOther, rfl⟩
      rw [hOther.unique hBelow]
      exact hUnrepeated
    · rintro ⟨complete, acyclic, hUnrepeated⟩
      obtain ⟨below, hBelow⟩ := exists_expands complete acyclic
      have hListing : Listing lib path.normalize document (below ++ [(path.normalize, document)]) :=
        ⟨below, hBelow, rfl⟩
      exact ⟨_, resolve_eq_ok_iff.2 ⟨_, hListing, hUnrepeated _ hListing, rfl⟩⟩
  · intro bundle hRun
    obtain ⟨files, hListing, hUnrepeated, rfl⟩ := resolve_eq_ok_iff.1 hRun
    refine ⟨files, hListing, rfl, fun file d hDuplicate found => ?_⟩
    exact hListing.nothing_of_duplicate hUnrepeated hDuplicate found

end Bundle

end TypedConfig
