import TypedConfig.Proofs.Comparison.Layout
/-!
How a path is spelled carries no meaning. A library in memory, the files that are put together and
the check for cycles all go by normal paths, so a root or an include can be written in any way that
normalizes to the same path.
-/
namespace TypedConfig

/-! ### Files in memory -/

namespace Library

/-- The library that files make up when each of them is added to those before. -/
def ofFiles (files : List (Path × String)) : Library :=
  files.foldl (fun lib file => lib.add file.1 file.2) .empty

/-- A file under another path that means the same file, whose text differs in how the paths of its
directives are spelled. -/
def FileRespelled (file other : Path × String) : Prop :=
  file.1.normalize.same other.1.normalize = true ∧
    Token.Respelled file.1.normalize.directory file.2.toList other.2.toList

variable {lib other : Library} {path path' : Path}

theorem lookup_filter_ne {files : List (Path × String)} {file removed : Path}
    (different : removed ≠ file) :
    (files.filter fun f => f.1 != removed).lookup file = files.lookup file := by
  induction files with
  | nil => rfl
  | cons f files ih =>
      obtain ⟨name, source⟩ := f
      rw [List.filter_cons]
      by_cases hName : name = removed
      · subst hName
        have hOther : (file == name) = false := by simpa using Ne.symm different
        rw [if_neg (by simp), ih, List.lookup_cons, hOther]
      · rw [if_pos (by simpa using hName), List.lookup_cons, List.lookup_cons, ih]

/-- Behind an added file the library is as it was. -/
theorem lookup_add (lib : Library) (path : Path) (source : String) (file : Path) :
    (lib.add path source).files.lookup file =
      if path.normalize = file then some source else lib.files.lookup file := by
  rw [add, List.lookup_cons]
  by_cases hFile : path.normalize = file
  · rw [if_pos hFile, beq_iff_eq.2 hFile.symm]
  · have hOther : (file == path.normalize) = false := by simpa using Ne.symm hFile
    rw [if_neg hFile, hOther]
    exact lookup_filter_ne hFile

theorem storage_ofFiles (files : List (Path × String)) : (ofFiles files).storage = .memory := by
  induction files using List.reverseRecOn with
  | nil => rfl
  | append_singleton files file ih =>
      rw [ofFiles, List.foldl_append]
      exact ih

/-- The library has the text that was added last under the path. -/
theorem find?_ofFiles (files : List (Path × String)) (path : Path) :
    (ofFiles files).find? path =
      (files.reverse.find? fun file => file.1.normalize.same path.normalize).map Prod.snd := by
  induction files using List.reverseRecOn with
  | nil => rfl
  | append_singleton files file ih =>
      have hLast : ofFiles (files ++ [file]) = (ofFiles files).add file.1 file.2 := by
        rw [ofFiles, List.foldl_append]
        rfl
      rw [hLast, find?, lookup_add, List.reverse_concat, List.find?_cons]
      by_cases hFile : file.1.normalize.same path.normalize = true
      · rw [hFile, if_pos (Path.normalize_same_iff.1 hFile)]
        rfl
      · rw [if_neg (mt Path.normalize_same_iff.2 hFile), eq_false_of_ne_true hFile]
        exact ih

theorem Alike.add (alike : lib.Alike other) {file file' : Path × String}
    (respelled : FileRespelled file file') :
    (lib.add file.1 file.2).Alike (other.add file'.1 file'.2) := by
  obtain ⟨hPath, hText⟩ := respelled
  rw [Path.normalize_same_iff] at hPath
  refine ⟨alike.storage, fun name => ?_⟩
  rw [lookup_add, lookup_add, ← hPath]
  split
  · next hName => exact .some (hName ▸ hText.scanAlike)
  · exact alike.texts name

/-- By induction on the files, of which each is added to libraries that are alike. -/
theorem alike_ofFiles {files others : List (Path × String)}
    (respelled : List.Forall₂ FileRespelled files others) :
    (ofFiles files).Alike (ofFiles others) := by
  have hFrom : ∀ lib other : Library, lib.Alike other →
      (files.foldl (fun lib file => lib.add file.1 file.2) lib).Alike
        (others.foldl (fun lib file => lib.add file.1 file.2) other) := by
    induction respelled with
    | nil => exact fun _ _ alike => alike
    | cons first _ ih => exact fun _ _ alike => ih _ _ (alike.add first)
  exact hFrom .empty .empty (.refl .empty)

theorem Alike.load (alike : lib.Alike other) (same : path.normalize = path'.normalize)
    (options : Options) :
    Configuration.SameOutcome (Configuration.load lib options path)
      (Configuration.load other options path') := by
  rw [Configuration.load_eq, Configuration.load_eq, read, read]
  rcases alike.locate same with
    ⟨fault, fault', hLeft, hRight⟩ | ⟨file, source, source', hLeft, hRight, hTexts⟩
  · rw [hLeft, hRight]
    exact .inr ⟨_, _, rfl, rfl, rfl⟩
  · obtain ⟨rfl, -⟩ := locate_eq_ok_iff.1 hLeft
    rw [hLeft, hRight]
    exact alike.ofSource same hTexts options

/-! ### Cycles -/

/-- A directive that leads back to a file that is being expanded is circular, however it is
spelled. -/
theorem expand_of_mem_chain (memory : lib.storage = .memory) {chain : List Path} {directory : Path}
    {before : Content} {directive : Include} {others : List Include} {source : String}
    (back : chain.any (directory.join directive.path).normalize.same = true)
    (there : lib.read (directory.join directive.path) = .ok source) :
    lib.expand chain directory before (directive :: others) =
      .error ⟨.inclusion (.circular
        ((chain ++ [(directory.join directive.path).normalize]).map Path.shortName)),
        directive.span⟩ := by
  rw [read] at there
  cases hLocate : lib.locate (directory.join directive.path) with
  | error fault =>
      rw [hLocate] at there
      cases there
  | ok found =>
      obtain ⟨hFile, hLookup⟩ := locate_eq_ok_iff.1 hLocate
      have hTarget : lib.locate (lib.target directory directive.path) =
          .ok ((directory.join directive.path).normalize, found.2) := by
        rw [locate_eq_ok_iff, target, memory]
        exact ⟨(Path.normalize_normalize _).symm, by rw [Path.normalize_normalize, hLookup]⟩
      simp only [expand_cons, hTarget, if_pos back]

end Library

/-- Files with a cycle are not put together. -/
theorem Bundle.ofSource_of_cycle {lib : Library} {path : Path} {source : String}
    {document : Document} (parses : Document.parse path.text source = .ok document)
    (cycle : ¬ Inclusion.Acyclic lib path.normalize document) :
    ∃ d, ofSource lib path source = .error d := by
  rw [ofSource, parses]
  cases hRun : resolve lib path [] document with
  | error d => exact ⟨d, hRun⟩
  | ok bundle =>
      obtain ⟨_, ⟨below, hBelow, -⟩, -⟩ := resolve_eq_ok_iff.1 hRun
      exact absurd (Inclusion.complete_and_acyclic_of_expands hBelow).2 cycle

/-- In memory, paths that normalize to the same path are one path. Reading such paths gives the
same, namely the text that was added last under one of them. Loading them gives the same
configuration, or the same codes of diagnostics in the same order, also if the files were added
under such other paths and directives are written with such other paths; and the same holds of a
given text of the root, which the library may not have. Files of which one includes itself are never
put together, and a directive that leads back to a file that is being expanded is circular, however
its path is written. -/
theorem Configuration.load_of_other_spelling (files : List (Path × String)) (p q : Path)
    (same : p.normalize.same q.normalize = true) :
    ((Library.ofFiles files).read p = (Library.ofFiles files).read q ∧
      (Library.ofFiles files).canonical p = (Library.ofFiles files).canonical q ∧
      (∀ file, (files.reverse.find? fun file => file.1.normalize.same p.normalize) = some file →
        (Library.ofFiles files).read p = .ok file.2 ∧
          (Library.ofFiles files).canonical p = .ok p.normalize) ∧
      ((files.reverse.find? fun file => file.1.normalize.same p.normalize) = none →
        (Library.ofFiles files).read p = .error ⟨.memory, p.normalize⟩ ∧
          (Library.ofFiles files).canonical p = .error ⟨.memory, p.normalize⟩)) ∧
    (∀ options others, List.Forall₂ Library.FileRespelled files others →
      SameOutcome (load (Library.ofFiles files) options p)
        (load (Library.ofFiles others) options q) ∧
      ∀ source other, Token.Respelled p.normalize.directory source.toList other.toList →
        SameOutcome (ofSource (Library.ofFiles files) options p source)
          (ofSource (Library.ofFiles others) options q other)) ∧
    (∀ options source document, Document.parse p.text source = .ok document →
      ¬ Inclusion.Acyclic (Library.ofFiles files) p.normalize document →
      ∃ ds, ofSource (Library.ofFiles files) options p source = .error ds) ∧
    ∀ chain directory before directive others source,
      chain.any (Path.join directory directive.path).normalize.same = true →
      (Library.ofFiles files).read (directory.join directive.path) = .ok source →
      (Library.ofFiles files).expand chain directory before (directive :: others) =
        .error ⟨.inclusion (.circular
          ((chain ++ [(directory.join directive.path).normalize]).map Path.shortName)),
          directive.span⟩ := by
  rw [Path.normalize_same_iff] at same
  refine ⟨⟨?_, ?_, ?_, ?_⟩, fun options others respelled => ?_, ?_, ?_⟩
  · rw [Library.read, Library.read, Library.locate, Library.locate, Library.find?, Library.find?,
      same]
  · rw [Library.canonical, Library.canonical, Library.locate, Library.locate, Library.find?,
      Library.find?, same]
  · intro file hLast
    rw [Library.read, Library.canonical, Library.locate, Library.find?_ofFiles, hLast]
    exact ⟨rfl, rfl⟩
  · intro hNone
    rw [Library.read, Library.canonical, Library.locate, Library.find?_ofFiles, hNone,
      Library.storage_ofFiles]
    exact ⟨rfl, rfl⟩
  · have hAlike := Library.alike_ofFiles respelled
    exact ⟨hAlike.load same options, fun source other hTexts =>
      hAlike.ofSource same hTexts.scanAlike options⟩
  · intro options source document parses cycle
    obtain ⟨d, hRun⟩ := Bundle.ofSource_of_cycle parses cycle
    exact ⟨[d], by rw [ofSource, hRun]; rfl⟩
  · exact fun _ _ _ _ _ _ back there =>
      Library.expand_of_mem_chain (Library.storage_ofFiles files) back there

/-- A file and its directive are written in two ways, and a directive leads back through a directory
that there is not. -/
theorem Configuration.load_of_detours :
    let source := "#include \"../lib/a\"\n\x7bx: 1\x7d"
    let other := "#include \"./../lib//a\"\n\x7bx: 1\x7d"
    let cycle := "#include \"x/../main\"\n\x7b\x7d"
    let files : List (Path × String) := [(⟨"cfg/main"⟩, source), (⟨"lib/a"⟩, cycle)]
    let others : List (Path × String) := [(⟨"cfg/./main"⟩, other), (⟨"lib/b/../a"⟩, cycle)]
    let p : Path := ⟨"cfg/main"⟩
    let q : Path := ⟨"./cfg//main"⟩
    let directive : Include := ⟨"x/../a", ⟨"lib/a", 1, 1⟩⟩
    p.normalize.same q.normalize = true ∧ List.Forall₂ Library.FileRespelled files others ∧
      (Library.ofFiles files).read p = .ok source ∧
      SameOutcome (load (Library.ofFiles files) .default p)
        (load (Library.ofFiles others) .default q) ∧
      SameOutcome (ofSource (Library.ofFiles files) .default p source)
        (ofSource (Library.ofFiles others) .default q other) ∧
      (∃ ds, ofSource (Library.ofFiles files) .default p cycle = .error ds) ∧
      (Library.ofFiles files).expand [⟨"lib/a"⟩] ⟨"lib"⟩ .empty [directive] =
        .error ⟨.inclusion (.circular ["a", "a"]), ⟨"lib/a", 1, 1⟩⟩ := by
  intro source other cycle files others p q directive
  have hSame : p.normalize.same q.normalize = true := by decide
  have hFront : ∀ back : List Char, Lexeme.Reads ("#include ".toList ++ '"' :: back)
      ([] ++ [.mark .hash, .word "include"]) ('"' :: back) := by
    intro back
    have hHash : Lexeme.next '#' ("include ".toList ++ '"' :: back) =
        .ok ⟨some (.mark .hash), ['#'], "include ".toList ++ '"' :: back⟩ := rfl
    have hWord : Lexeme.next 'i' ("nclude ".toList ++ '"' :: back) =
        .ok ⟨some (.word "include"), "include".toList, ' ' :: '"' :: back⟩ := rfl
    have hBlank : Lexeme.next ' ' ('"' :: back) = .ok ⟨none, [' '], '"' :: back⟩ := rfl
    exact .step hHash (.step hWord (.step hBlank .done))
  have hRespelled : Token.Respelled p.normalize.directory source.toList other.toList := by
    have hPath : Lexeme.next '"' ("../lib/a\"".toList ++ "\n\x7bx: 1\x7d".toList) =
        .ok ⟨some (.quoted "../lib/a"), "\"../lib/a\"".toList, "\n\x7bx: 1\x7d".toList⟩ := rfl
    have hOther : Lexeme.next '"' ("./../lib//a\"".toList ++ "\n\x7bx: 1\x7d".toList) =
        .ok ⟨some (.quoted "./../lib//a"), "\"./../lib//a\"".toList, "\n\x7bx: 1\x7d".toList⟩ := rfl
    have hTogether : p.normalize.directory.Together "../lib/a" "./../lib//a" := by
      unfold Path.Together
      decide
    have hSource : source.toList =
        "#include ".toList ++ '"' :: ("../lib/a\"".toList ++ "\n\x7bx: 1\x7d".toList) := by
      decide
    have hSourceOther : other.toList =
        "#include ".toList ++ '"' :: ("./../lib//a\"".toList ++ "\n\x7bx: 1\x7d".toList) := by
      decide
    rw [hSource, hSourceOther]
    exact .literal (hFront _) hPath hOther hTogether .same
  have hFiles : List.Forall₂ Library.FileRespelled files others :=
    .cons ⟨by decide, hRespelled⟩ (.cons ⟨by decide, .same⟩ .nil)
  have hLast : (files.reverse.find? fun file => file.1.normalize.same p.normalize) =
      some (p, source) := by
    decide
  have hParse : Document.parse p.text cycle =
      .ok ⟨[⟨"x/../main", ⟨"cfg/main", 1, 1⟩⟩], [], ⟨[], ⟨"cfg/main", 2, 1⟩⟩⟩ := by
    cbv
  have hBack : Inclusion.target (Library.ofFiles files) p.normalize
      ⟨"x/../main", ⟨"cfg/main", 1, 1⟩⟩ = p.normalize := by
    decide
  have hCycle : ¬ Inclusion.Acyclic (Library.ofFiles files) p.normalize
      ⟨[⟨"x/../main", ⟨"cfg/main", 1, 1⟩⟩], [], ⟨[], ⟨"cfg/main", 2, 1⟩⟩⟩ := fun acyclic =>
    acyclic p.normalize .refl
      (.single ⟨_, Inclusion.document?_root, _, List.mem_singleton.2 rfl, hBack⟩)
  have hMain := load_of_other_spelling files p q hSame
  have hRuns := hMain.2.1 .default others hFiles
  have hNames : ([Path.mk "lib/a"] ++ [(Path.join ⟨"lib"⟩ directive.path).normalize]).map
      Path.shortName = ["a", "a"] := by
    decide
  have hExpand := hMain.2.2.2 [⟨"lib/a"⟩] ⟨"lib"⟩ .empty directive [] cycle (by decide) (by decide)
  rw [hNames] at hExpand
  exact ⟨hSame, hFiles, (hMain.1.2.2.1 _ hLast).1, hRuns.1, hRuns.2 source other hRespelled,
    hMain.2.2.1 .default cycle _ hParse hCycle, hExpand⟩

end TypedConfig
