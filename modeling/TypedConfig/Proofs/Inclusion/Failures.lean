import Mathlib
import TypedConfig.Proofs.Inclusion.Exactness
import TypedConfig.Proofs.Places.Reading
/-!
What is told of files that cannot be put together is so. A cycle is told with the files along a walk
of directives from the root, a missing file with a directive that leads to no file, and a repeated
name or key with two of its places in the order in which the files are expanded. As an expansion
that fails may have no end, that order is told of the initial parts of the expansion.
-/
namespace TypedConfig.Inclusion

section

variable (lib : Library) (root : Path) (document : Document)

/-- An initial part of the post-order expansion of directives that stand in a file. Only what is
listed has to be there: the later directives, and what is behind an inner part, need no expansion. -/
inductive Begins : Path → List Include → List (Path × Document) → Prop where
  | nothing {file : Path} {directives : List Include} : Begins file directives []
  | past {file : Path} {directive : Include} {directives : List Include} {d : Document}
      {below part : List (Path × Document)}
      (found : document? lib root document (target lib file directive) = some d)
      (inner : Expands lib root document (target lib file directive) d.includes below)
      (others : Begins file directives part) :
      Begins file (directive :: directives) (below ++ (target lib file directive, d) :: part)
  | inside {file : Path} {directive : Include} {directives : List Include} {d : Document}
      {part : List (Path × Document)}
      (found : document? lib root document (target lib file directive) = some d)
      (inner : Begins (target lib file directive) d.includes part) :
      Begins file (directive :: directives) part

/-- An initial part of the post-order expansion of the root, the whole of it included. -/
inductive Opens : List (Path × Document) → Prop where
  | below {files : List (Path × Document)}
      (part : Begins lib root document root document.includes files) : Opens files
  | whole {files : List (Path × Document)} (listing : Listing lib root document files) : Opens files

/-- A walk of directives leads from the root to a file, and by no file twice. -/
structure Walk (walk : List Path) (file : Path) : Prop where
  starts : walk.head? = some root
  ends : walk.getLast? = some file
  steps : walk.IsChain (Edge lib root document)
  different : walk.Nodup

/-- What stops an expansion, with what it says being so: a text that is no document, a directive to
no file, a directive that closes a walk, or a name or a key that comes twice in files that are
listed as told. -/
inductive Stops (listed : List (Path × Document) → Prop) : Diagnostic → Prop where
  | unreadable {file : Path} {source : String} {d : Diagnostic}
      (reached : Reachable lib root document file) (other : file ≠ root)
      (found : lib.files.lookup file = some source)
      (fails : Document.parse file.text source = .error d)
      (stage : d.cause.stage ∈ ["lex", "parse"]) : Stops listed d
  | missing {file : Path} {d : Document} {directive : Include}
      (reached : Reachable lib root document file)
      (found : document? lib root document file = some d) (written : directive ∈ d.includes)
      (absent : lib.files.lookup (target lib file directive) = none) :
      Stops listed ⟨.inclusion (.notFound (lib.target file.directory directive.path).text
        ⟨lib.storage, target lib file directive⟩), directive.span⟩
  | circular {walk : List Path} {file : Path} {d : Document} {directive : Include}
      (leads : Walk lib root document walk file)
      (found : document? lib root document file = some d) (written : directive ∈ d.includes)
      (closes : target lib file directive ∈ walk) :
      Stops listed ⟨.inclusion (.circular ((walk ++ [target lib file directive]).map
        Path.shortName)), directive.span⟩
  | repeatedName {files : List (Path × Document)} {first again : Declaration} (part : listed files)
      (twice : [first, again].Sublist (files.flatMap (·.2.declarations)))
      (same : first.name = again.name) :
      Stops listed ⟨.inclusion (.duplicateDeclaration again.name first.span), again.span⟩
  | repeatedKey {files : List (Path × Document)} {first again : Entry} (part : listed files)
      (twice : [first, again].Sublist (files.flatMap (·.2.root.entries)))
      (same : first.key = again.key) :
      Stops listed ⟨.inclusion (.duplicateKey again.key first.keySpan), again.keySpan⟩

end

open Content

variable {lib : Library} {root : Path} {document : Document} {file : Path} {walk : List Path}
  {directive : Include} {directives : List Include} {files post : List (Path × Document)}
  {listed listed' : List (Path × Document) → Prop} {d : Diagnostic}

/-! ### Initial parts -/

/-- By induction on the part: an expansion goes on from each of its initial parts. -/
theorem Begins.prefix_expansion (begins : Begins lib root document file directives files)
    (expands : Expands lib root document file directives post) : files <+: post := by
  induction begins generalizing post with
  | nothing => exact List.nil_prefix
  | past found inner _ ih =>
      cases expands with
      | paste found' inner' others =>
          obtain rfl := Option.some.inj (found.symm.trans found')
          rw [inner.unique inner', List.prefix_append_right_inj, List.cons_prefix_cons]
          exact ⟨rfl, ih others⟩
  | inside found _ ih =>
      cases expands with
      | paste found' inner' others =>
          obtain rfl := Option.some.inj (found.symm.trans found')
          exact (ih inner').trans (List.prefix_append _ _)

theorem Opens.prefix_listing (opens : Opens lib root document files)
    (listing : Listing lib root document post) : files <+: post := by
  obtain ⟨below, expands, rfl⟩ := listing
  cases opens with
  | below part => exact (part.prefix_expansion expands).trans (List.prefix_append _ _)
  | whole other =>
      obtain ⟨below', expands', rfl⟩ := other
      rw [expands'.unique expands]

/-! ### Walks -/

theorem Walk.here (root : Path) : Walk lib root document [root] root where
  starts := rfl
  ends := rfl
  steps := .singleton root
  different := List.nodup_singleton root

theorem Walk.extend (leads : Walk lib root document walk file)
    (edge : Edge lib root document file (target lib file directive))
    (fresh : target lib file directive ∉ walk) :
    Walk lib root document (walk ++ [target lib file directive]) (target lib file directive) where
  starts := by rw [List.head?_append, leads.starts, Option.some_or]
  ends := List.getLast?_concat
  steps := by
    refine leads.steps.append (.singleton _) ?_
    simpa [leads.ends] using edge
  different := by
    rw [← List.concat_eq_append, List.nodup_concat]
    exact ⟨fresh, leads.different⟩

/-! ### Stopping -/

/-- What comes twice in files that are listed comes twice in more files. -/
theorem Stops.imp (more : ∀ files, listed files → ∃ all, listed' all ∧ files.Sublist all)
    (stops : Stops lib root document listed d) : Stops lib root document listed' d := by
  cases stops with
  | unreadable reached other found fails stage =>
      exact .unreadable reached other found fails stage
  | missing reached found written absent => exact .missing reached found written absent
  | circular leads found written closes => exact .circular leads found written closes
  | repeatedName part twice same =>
      obtain ⟨all, hAll, hSublist⟩ := more _ part
      exact .repeatedName hAll (twice.trans (hSublist.flatMap _)) same
  | repeatedKey part twice same =>
      obtain ⟨all, hAll, hSublist⟩ := more _ part
      exact .repeatedKey hAll (twice.trans (hSublist.flatMap _)) same

/-- Pasting stops at what comes twice in the whole. -/
theorem Stops.of_paste {others : List (Path × Document)}
    (fails : (ofFiles files).paste (ofFiles others) = .error d) (part : listed (files ++ others)) :
    Stops lib root document listed d := by
  rw [paste_eq_error_iff, ← ofFiles_append, repetition?] at fails
  split at fails
  · next first again hFound =>
    cases fails
    obtain ⟨hName, hTwice⟩ := sublist_of_firstRepeat? hFound
    exact .repeatedName part hTwice hName
  · split at fails
    · next first again hFound =>
      cases fails
      obtain ⟨hKey, hTwice⟩ := sublist_of_firstRepeat? hFound
      exact .repeatedKey part hTwice hKey
    · cases fails

/-- A text that is no document stops at what it has, and not at what it includes. -/
theorem stage_of_parse {name source : String} (fails : Document.parse name source = .error d) :
    d.cause.stage ∈ ["lex", "parse"] := by
  have hTokens : ∀ s, Token.StartsAt name source s → True := fun _ _ => trivial
  rcases (Document.parse_outcome hTokens).of_error fails with ⟨fault, hCause, -⟩ | hWithin
  · simp [hCause, Cause.stage]
  · simp [hWithin.stage]

/-- How one directive and those after it can fail behind files that are listed before: there is no
file, it is being expanded, its text is no document, or expanding and pasting it or what is behind it
fails. -/
theorem expand_cons_error_cases {prior : List (Path × Document)} (visited : root ∈ walk)
    (fails : lib.expand walk file.directory (ofFiles prior) (directive :: directives) = .error d) :
    (lib.files.lookup (target lib file directive) = none ∧
      d = ⟨.inclusion (.notFound (lib.target file.directory directive.path).text
        ⟨lib.storage, target lib file directive⟩), directive.span⟩) ∨
    (walk.any (target lib file directive).same = true ∧
      d = ⟨.inclusion (.circular ((walk ++ [target lib file directive]).map Path.shortName)),
        directive.span⟩) ∨
    (∃ source, target lib file directive ≠ root ∧
      lib.files.lookup (target lib file directive) = some source ∧
      Document.parse (target lib file directive).text source = .error d) ∨
    ∃ e, document? lib root document (target lib file directive) = some e ∧
      target lib file directive ∉ walk ∧
      lib.unvisited (walk ++ [target lib file directive]) < lib.unvisited walk ∧
      (lib.expand (walk ++ [target lib file directive]) (target lib file directive).directory
          (ofFiles []) e.includes = .error d ∨
        ∃ below, Expands lib root document (target lib file directive) e.includes below ∧
          ((ofFiles below).paste (ofFiles [(target lib file directive, e)]) = .error d ∨
            (ofFiles prior).paste (ofFiles (below ++ [(target lib file directive, e)])) = .error d ∨
            lib.expand walk file.directory
              (ofFiles (prior ++ (below ++ [(target lib file directive, e)]))) directives =
                .error d)) := by
  rw [Library.expand_cons] at fails
  cases hLookup : lib.files.lookup (target lib file directive) with
  | none =>
      rw [Library.locate_eq_error_iff.2 ⟨rfl, hLookup⟩] at fails
      cases fails
      exact .inl ⟨rfl, rfl⟩
  | some source =>
      have hLocate : lib.locate (lib.target file.directory directive.path) =
          .ok (target lib file directive, source) := Library.locate_eq_ok_iff.2 ⟨rfl, hLookup⟩
      simp only [hLocate] at fails
      split at fails
      · next hSeen =>
        cases fails
        exact .inr (.inl ⟨hSeen, rfl⟩)
      · next hFresh =>
        have hOther := target_ne_of_fresh visited hFresh
        simp only [bind_eq_error_iff] at fails
        rcases fails with hParse | ⟨e, hParse, hBehind⟩
        · exact .inr (.inr (.inl ⟨source, hOther, rfl, hParse⟩))
        · refine .inr (.inr (.inr ⟨e, (document?_eq_some_iff hOther).2 ⟨source, hLookup, hParse⟩,
            not_mem_of_fresh hFresh, Library.unvisited_lt hLocate hFresh, ?_⟩))
          rcases hBehind with hBelow | ⟨included, hBelow, hPasting⟩
          · exact .inl hBelow
          · obtain ⟨below, hExpands, rfl, -⟩ :=
              expands_of_expand (List.mem_append_left _ visited) hBelow
            refine .inr ⟨below, hExpands, ?_⟩
            rw [empty_beside, own_eq_ofFiles] at hPasting
            rcases hPasting with hOwn | ⟨own, hOwn, hRest⟩
            · exact .inl hOwn
            · obtain ⟨rfl, -⟩ := paste_eq_ok_iff.1 hOwn
              rw [← ofFiles_append] at hRest
              rcases hRest with hPaste | ⟨pasted, hPaste, hOthers⟩
              · exact .inr (.inl hPaste)
              · obtain ⟨rfl, -⟩ := paste_eq_ok_iff.1 hPaste
                rw [← ofFiles_append] at hOthers
                exact .inr (.inr hOthers)

/-- By induction on the files that are not yet visited, and for each file on its directives. What
stops an inner expansion stops the outer one, and what is listed there is an initial part here, behind
the files that are listed before. -/
theorem stops_of_expand {e : Document} {prior : List (Path × Document)}
    (around : Around lib root document walk file) (leads : Walk lib root document walk file)
    (found : document? lib root document file = some e)
    (written : ∀ directive ∈ directives, directive ∈ e.includes)
    (fails : lib.expand walk file.directory (ofFiles prior) directives = .error d) :
    Stops lib root document (fun files =>
      ∃ part, Begins lib root document file directives part ∧ files = prior ++ part) d := by
  induction hUnvisited : lib.unvisited walk using Nat.strongRecOn generalizing
    walk file e prior directives with
  | _ n ih =>
      induction directives generalizing prior with
      | nil =>
          rw [Library.expand] at fails
          cases fails
      | cons directive directives ihDirectives =>
          obtain ⟨hWritten, hOthersWritten⟩ := List.forall_mem_cons.1 written
          have hEdge : Edge lib root document file (target lib file directive) :=
            ⟨e, found, directive, hWritten, rfl⟩
          have hReached := around.leads root around.root_mem
          rcases expand_cons_error_cases around.root_mem fails with
            ⟨hAbsent, rfl⟩ | ⟨hSeen, rfl⟩ | ⟨source, hOther, hLookup, hParse⟩ |
              ⟨inner, hFound, hEntered, hLess, hFails⟩
          · exact .missing hReached found hWritten hAbsent
          · exact .circular leads found hWritten (around.mem_of_any hSeen)
          · exact .unreadable (hReached.tail hEdge) hOther hLookup hParse (stage_of_parse hParse)
          · rcases hFails with hBelow | ⟨below, hExpands, hOwn | hPaste | hOthers⟩
            · have hInner := ih _ (hUnvisited ▸ hLess) (around.extend hEdge)
                (leads.extend hEdge hEntered) hFound (fun _ mem => mem) hBelow rfl
              refine hInner.imp ?_
              rintro _ ⟨_, hPart, rfl⟩
              exact ⟨_, ⟨_, .inside hFound hPart, rfl⟩, List.sublist_append_right _ _⟩
            · have hPart : Begins lib root document file (directive :: directives)
                  (below ++ [(target lib file directive, inner)]) := .past hFound hExpands .nothing
              have hWhole : Stops lib root document
                  (· = below ++ [(target lib file directive, inner)]) d := .of_paste hOwn rfl
              refine hWhole.imp ?_
              rintro _ rfl
              exact ⟨_, ⟨_, hPart, rfl⟩, List.sublist_append_right _ _⟩
            · exact .of_paste hPaste ⟨_, .past hFound hExpands .nothing, rfl⟩
            · refine (ihDirectives hOthersWritten hOthers).imp ?_
              rintro _ ⟨_, hPart, rfl⟩
              refine ⟨_, ⟨_, .past hFound hExpands hPart, rfl⟩, ?_⟩
              rw [List.append_assoc, List.append_assoc]
              exact List.Sublist.refl _

end TypedConfig.Inclusion

namespace TypedConfig.Bundle

open Inclusion

/-- What stops the resolving of a document that nothing is expanded around is so. A cycle is told
with the names of the files along a walk of directives from the root that comes by no file twice, and
then of the file to which the directive at fault leads back. A missing file is told at a directive
that leads to no file of the library. A repeated name or key is told at the later one of two of its
places in the order of the expansion, and with the earlier one; and the files that the two are taken
from are an initial part of the listing, wherever there is one. -/
theorem resolve_stops (lib : Library) (path : Path) (document : Document) (d : Diagnostic)
    (fails : resolve lib path [] document = .error d) :
    Stops lib path.normalize document (Opens lib path.normalize document) d ∧
      ∀ files listing, Opens lib path.normalize document files →
        Listing lib path.normalize document listing → files <+: listing := by
  refine ⟨?_, fun files listing opens => opens.prefix_listing⟩
  simp only [resolve_eq, bind_eq_error_iff] at fails
  rcases fails with hRun | ⟨included, hRun, hPaste | ⟨content, -, hReturn⟩⟩
  · have hFails : lib.expand [path.normalize] path.normalize.directory (Content.ofFiles [])
        document.includes = .error d := hRun
    have hStops := stops_of_expand (.here path) (.here path.normalize) document?_root
      (fun _ mem => mem) hFails
    refine hStops.imp ?_
    rintro _ ⟨_, hPart, rfl⟩
    exact ⟨_, .below hPart, List.Sublist.refl _⟩
  · obtain ⟨below, hBelow, rfl, -⟩ := expands_of_expand (List.mem_singleton.2 rfl) hRun
    rw [Content.empty_beside, own_eq_ofFiles] at hPaste
    exact .of_paste hPaste (.whole ⟨below, hBelow, rfl⟩)
  · cases hReturn

/-- A file that is included twice is listed twice, and its declaration is told at one place for both
times; the later directive leads to no file, and is not reached. -/
theorem resolve_stops_at_file_included_twice :
    let lib : Library := ⟨.memory, [(⟨"d"⟩, "@type T \x7b\x7d\n\x7b\x7d")]⟩
    let document : Document :=
      ⟨[⟨"d", ⟨"main", 1, 1⟩⟩, ⟨"d", ⟨"main", 2, 1⟩⟩, ⟨"gone", ⟨"main", 3, 1⟩⟩], [],
        ⟨[], ⟨"main", 4, 1⟩⟩⟩
    let d : Diagnostic := ⟨.inclusion (.duplicateDeclaration "T" ⟨"d", 1, 1⟩), ⟨"d", 1, 1⟩⟩
    resolve lib ⟨"main"⟩ [] document = .error d ∧
      Stops lib (Path.mk "main").normalize document
        (Opens lib (Path.mk "main").normalize document) d := by
  intro lib document d
  let inner : Document := ⟨[], [⟨"T", .record [], ⟨"d", 1, 1⟩⟩], ⟨[], ⟨"d", 2, 1⟩⟩⟩
  have hMain : (Path.mk "main").normalize = ⟨"main"⟩ := by cbv
  have hSame : Path.same ⟨"d"⟩ ⟨"main"⟩ = false := by cbv
  have hLocate : lib.locate (lib.target (Path.mk "main").directory "d") =
      .ok (⟨"d"⟩, "@type T \x7b\x7d\n\x7b\x7d") := by cbv
  have hParse : Document.parse "d" "@type T \x7b\x7d\n\x7b\x7d" = .ok inner := by cbv
  have hFails : resolve lib ⟨"main"⟩ [] document = .error d := by
    rw [resolve_eq]
    simp only [document, inner, hMain, entering, List.any_nil, List.any_cons, hSame, Bool.or_false,
      Bool.false_eq_true, ↓reduceIte, List.nil_append, Library.expand_cons, Library.expand, hLocate,
      hParse]
    cbv
  exact ⟨hFails, (resolve_stops lib ⟨"main"⟩ document d hFails).1⟩

end TypedConfig.Bundle
