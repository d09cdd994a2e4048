import Mathlib.Data.Fintype.Card
import Mathlib.Data.Set.Finite.Basic
import TypedConfig.Proofs.Inclusion
/-!
Expansions and the graph of files. A file has at most one expansion, and a longer one than every
file that it includes; so there is an expansion of the root exactly if every reachable file is there
and none includes itself.
-/
namespace TypedConfig.Inclusion

variable {lib : Library} {root : Path} {document : Document}

/-- By induction on the expansion: the directives determine each step of it. -/
theorem Expands.unique {file : Path} {directives : List Include}
    {post other : List (Path × Document)} (left : Expands lib root document file directives post)
    (right : Expands lib root document file directives other) : post = other := by
  induction left generalizing other with
  | done =>
      cases right
      rfl
  | paste found inner others ihInner ihOthers =>
      cases right with
      | paste found' inner' others' =>
          obtain rfl := Option.some.inj (found.symm.trans found')
          rw [ihInner inner', ihOthers others']

/-- An expansion lists every file that the directives include, after what that file includes. -/
theorem Expands.of_mem {file : Path} {directives : List Include} {post : List (Path × Document)}
    (expands : Expands lib root document file directives post) {directive : Include}
    (mem : directive ∈ directives) :
    ∃ d below, document? lib root document (target lib file directive) = some d ∧
      Expands lib root document (target lib file directive) d.includes below ∧
      below.length < post.length := by
  induction expands with
  | done => cases mem
  | @paste file first directives d below later found inner others _ ihOthers =>
      rcases List.mem_cons.1 mem with rfl | mem
      · refine ⟨d, below, found, inner, ?_⟩
        rw [List.length_append, List.length_cons]
        omega
      · obtain ⟨d', below', found', inner', hLength⟩ := ihOthers mem
        refine ⟨d', below', found', inner', ?_⟩
        rw [List.length_append, List.length_cons]
        omega

/-- A file is expanded: its document is there, and its directives have an expansion. -/
def Expanded (lib : Library) (root : Path) (document : Document) (file : Path)
    (post : List (Path × Document)) : Prop :=
  ∃ d, document? lib root document file = some d ∧ Expands lib root document file d.includes post

theorem Expanded.of_edge {file other : Path} {post : List (Path × Document)}
    (expanded : Expanded lib root document file post) (edge : Edge lib root document file other) :
    ∃ below, Expanded lib root document other below ∧ below.length < post.length := by
  obtain ⟨d, found, expands⟩ := expanded
  obtain ⟨d', found', directive, mem, rfl⟩ := edge
  obtain rfl := Option.some.inj (found.symm.trans found')
  obtain ⟨e, below, foundE, inner, hLength⟩ := expands.of_mem mem
  exact ⟨below, ⟨e, foundE, inner⟩, hLength⟩

theorem Expanded.of_reachable {file other : Path} {post : List (Path × Document)}
    (expanded : Expanded lib root document file post)
    (reaches : Relation.ReflTransGen (Edge lib root document) file other) :
    ∃ below, Expanded lib root document other below := by
  induction reaches with
  | refl => exact ⟨post, expanded⟩
  | tail _ edge ih =>
      obtain ⟨below, hBelow⟩ := ih
      obtain ⟨deeper, hDeeper, -⟩ := hBelow.of_edge edge
      exact ⟨deeper, hDeeper⟩

/-- The expansion gets shorter along every path of the graph. -/
theorem Expanded.length_lt_of_transGen {file other : Path} {post below : List (Path × Document)}
    (upper : Expanded lib root document file post) (lower : Expanded lib root document other below)
    (path : Relation.TransGen (Edge lib root document) file other) :
    below.length < post.length := by
  have hUnique : ∀ {file : Path} {post other : List (Path × Document)},
      Expanded lib root document file post → Expanded lib root document file other →
        post = other := by
    rintro file post other ⟨d, found, expands⟩ ⟨d', found', expands'⟩
    obtain rfl := Option.some.inj (found.symm.trans found')
    exact expands.unique expands'
  induction path generalizing below with
  | single edge =>
      obtain ⟨deeper, hDeeper, hLength⟩ := upper.of_edge edge
      rw [hUnique lower hDeeper]
      exact hLength
  | tail path edge ih =>
      obtain ⟨middle, hMiddle⟩ := upper.of_reachable path.to_reflTransGen
      obtain ⟨deeper, hDeeper, hLength⟩ := hMiddle.of_edge edge
      rw [hUnique lower hDeeper]
      exact hLength.trans (ih hMiddle)

theorem document?_root : document? lib root document root = some document := if_pos rfl

/-- If the root has an expansion, every reachable file is there and none includes itself. -/
theorem complete_and_acyclic_of_expands {below : List (Path × Document)}
    (expands : Expands lib root document root document.includes below) :
    Complete lib root document ∧ Acyclic lib root document := by
  have hRoot : Expanded lib root document root below := ⟨document, document?_root, expands⟩
  constructor
  · intro file reachable
    obtain ⟨_, d, found, -⟩ := hRoot.of_reachable reachable
    exact ⟨d, found⟩
  · intro file reachable cycle
    obtain ⟨post, hPost⟩ := hRoot.of_reachable reachable
    exact absurd (hPost.length_lt_of_transGen hPost cycle) (Nat.lt_irrefl _)

/-- A file with a document is the root or a file of the library. -/
theorem mem_of_document? {file : Path} {d : Document}
    (found : document? lib root document file = some d) :
    file ∈ root :: lib.files.map Prod.fst := by
  by_cases hRoot : file = root
  · exact hRoot ▸ List.mem_cons_self
  · rw [document?, if_neg hRoot] at found
    obtain ⟨source, hSource, -⟩ := Option.bind_eq_some_iff.1 found
    obtain ⟨before, after, hFiles, -⟩ := List.lookup_eq_some_iff.1 hSource
    exact List.mem_cons_of_mem _ (by simp [hFiles])

/-- There are finitely many reachable files, so going from files to those that they include comes to
an end where no file includes itself. -/
theorem wellFounded_of_acyclic (complete : Complete lib root document)
    (acyclic : Acyclic lib root document) :
    WellFounded fun other file : {file // Reachable lib root document file} =>
      Relation.TransGen (Edge lib root document) file.1 other.1 := by
  have hFinite : Finite {file // Reachable lib root document file} := by
    refine Set.Finite.subset (List.finite_toSet (root :: lib.files.map Prod.fst)) ?_
    intro file reachable
    obtain ⟨d, found⟩ := complete file reachable
    exact mem_of_document? found
  have hTrans : IsTrans {file // Reachable lib root document file} fun other file =>
      Relation.TransGen (Edge lib root document) file.1 other.1 :=
    ⟨fun _ _ _ left right => right.trans left⟩
  have hIrrefl : Std.Irrefl fun other file : {file // Reachable lib root document file} =>
      Relation.TransGen (Edge lib root document) file.1 other.1 :=
    ⟨fun file => acyclic file.1 file.2⟩
  exact Finite.wellFounded_of_trans_of_irrefl _

/-- Directives can be expanded one after the other if each included file can. -/
theorem exists_expands_of_each {file : Path} {directives : List Include}
    (each : ∀ directive ∈ directives,
      ∃ post, Expanded lib root document (target lib file directive) post) :
    ∃ post, Expands lib root document file directives post := by
  induction directives with
  | nil => exact ⟨[], .done⟩
  | cons directive directives ih =>
      obtain ⟨hFirst, hOthers⟩ := List.forall_mem_cons.1 each
      obtain ⟨below, d, found, inner⟩ := hFirst
      obtain ⟨later, others⟩ := ih hOthers
      exact ⟨_, .paste found inner others⟩

/-- If every reachable file is there and none includes itself, the root has an expansion. -/
theorem exists_expands (complete : Complete lib root document)
    (acyclic : Acyclic lib root document) :
    ∃ below, Expands lib root document root document.includes below := by
  have hExpanded : ∀ file : {file // Reachable lib root document file},
      ∃ post, Expanded lib root document file.1 post := by
    intro file
    induction file using (wellFounded_of_acyclic complete acyclic).induction with
    | _ file ih =>
        obtain ⟨file, reachable⟩ := file
        obtain ⟨d, found⟩ := complete file reachable
        obtain ⟨post, expands⟩ : ∃ post, Expands lib root document file d.includes post := by
          apply exists_expands_of_each
          intro directive mem
          have hEdge : Edge lib root document file (target lib file directive) :=
            ⟨d, found, directive, mem, rfl⟩
          exact ih ⟨target lib file directive, reachable.tail hEdge⟩ (.single hEdge)
        exact ⟨post, d, found, expands⟩
  obtain ⟨below, d, found, expands⟩ := hExpanded ⟨root, .refl⟩
  obtain rfl := Option.some.inj (document?_root.symm.trans found)
  exact ⟨below, expands⟩

end TypedConfig.Inclusion
