import TypedConfig.Proofs.Inclusion.Exactness
/-!
Files that are already visited. They can make an expansion fail, as no file of them may be included,
and do nothing else: a run that succeeds among visited files gives what it gives without them.
-/
namespace TypedConfig

/-- None of the files is a visited one, whatever the spelling. -/
def Path.NoneVisited (visited files : List Path) : Prop :=
  ∀ file ∈ files, ∀ other ∈ visited, file.components ≠ other.components

namespace Path

variable {visited files others : List Path} {file : Path}

theorem noneVisited_nil : NoneVisited visited [] := List.forall_mem_nil _

theorem noneVisited_append : NoneVisited visited (files ++ others) ↔
    NoneVisited visited files ∧ NoneVisited visited others :=
  List.forall_mem_append

theorem noneVisited_singleton : NoneVisited visited [file] ↔ ¬ visited.any file.same = true := by
  simp [NoneVisited, same]

theorem NoneVisited.mono {fewer : List Path} (none : NoneVisited visited files)
    (subset : fewer ⊆ visited) : NoneVisited fewer files :=
  fun f mem other hOther => none f mem other (subset hOther)

end Path

open TypedConfig.Path

namespace Library

variable {lib : Library} {chain fewer visited : List Path} {directory : Path}
  {before content : Content} {directives : List Include}

theorem files_of_paste {after : Content} (pastes : before.paste after = .ok content) :
    content.files = before.files ++ after.files := by
  rw [(Content.paste_eq_ok_iff.1 pastes).1]
  rfl

/-- By induction on the directives: the content before them stays in front. -/
theorem files_prefix_of_expand
    (runs : lib.expand chain directory before directives = .ok content) :
    ∃ added, content.files = before.files ++ added := by
  induction directives generalizing before with
  | nil => exact ⟨[], by rw [expand_nil_eq_ok_iff.1 runs, List.append_nil]⟩
  | cons directive others ih =>
      obtain ⟨_, _, _, _, own, pasted, -, -, -, -, -, hPaste, hOthers⟩ :=
        expand_cons_eq_ok_iff.1 runs
      obtain ⟨added, hAdded⟩ := ih hOthers
      exact ⟨own.files ++ added, by rw [hAdded, files_of_paste hPaste, List.append_assoc]⟩

/-- By induction on the files that are not yet expanded, and for each file on its directives. A file
may be entered among more files exactly if it may be entered among fewer and is none of the visited
ones, and every file that is entered is listed. -/
theorem expand_eq_ok_iff_of_fewer
    (more : ∀ file : Path, chain.any file.same = true ↔
      visited.any file.same = true ∨ fewer.any file.same = true)
    (clear : NoneVisited visited before.files) :
    lib.expand chain directory before directives = .ok content ↔
      lib.expand fewer directory before directives = .ok content ∧
        NoneVisited visited content.files := by
  induction hUnvisited : lib.unvisited fewer using Nat.strongRecOn generalizing
    chain fewer directory before content directives with
  | _ n ih =>
      induction directives generalizing before with
      | nil =>
          rw [expand_nil_eq_ok_iff, expand_nil_eq_ok_iff]
          exact ⟨fun h => ⟨h, h ▸ clear⟩, And.left⟩
      | cons directive others ihDirectives =>
          have hMore : ∀ entered file : Path, (chain ++ [entered]).any file.same = true ↔
              visited.any file.same = true ∨ (fewer ++ [entered]).any file.same = true := by
            intro entered file
            simp only [List.any_append, Bool.or_eq_true, more file, or_assoc]
          rw [expand_cons_eq_ok_iff, expand_cons_eq_ok_iff]
          constructor
          · rintro ⟨file, source, document, included, own, pasted, hLocate, hFresh, hParse, hBelow,
              hOwn, hPaste, hOthers⟩
            rw [more file, not_or] at hFresh
            obtain ⟨hClear, hFewer⟩ := hFresh
            have hLess := hUnvisited ▸ unvisited_lt hLocate hFewer
            obtain ⟨hBelow, hIncluded⟩ := (ih _ hLess (hMore file) noneVisited_nil rfl).1 hBelow
            have hPasted : NoneVisited visited pasted.files := by
              rw [files_of_paste hPaste, files_of_paste hOwn, noneVisited_append,
                noneVisited_append]
              exact ⟨clear, hIncluded, noneVisited_singleton.2 hClear⟩
            obtain ⟨hOthers, hContent⟩ := (ihDirectives hPasted).1 hOthers
            exact ⟨⟨file, source, document, included, own, pasted, hLocate, hFewer, hParse, hBelow,
              hOwn, hPaste, hOthers⟩, hContent⟩
          · rintro ⟨⟨file, source, document, included, own, pasted, hLocate, hFewer, hParse, hBelow,
              hOwn, hPaste, hOthers⟩, hContent⟩
            obtain ⟨added, hAdded⟩ := files_prefix_of_expand hOthers
            have hPasted := (noneVisited_append.1 (hAdded ▸ hContent)).1
            have hOwnFiles := hPasted
            rw [files_of_paste hPaste, files_of_paste hOwn, noneVisited_append,
              noneVisited_append] at hOwnFiles
            obtain ⟨-, hIncluded, hFile⟩ := hOwnFiles
            have hFresh : ¬ chain.any file.same = true := by
              rw [more file, not_or]
              exact ⟨noneVisited_singleton.1 hFile, hFewer⟩
            have hLess := hUnvisited ▸ unvisited_lt hLocate hFewer
            exact ⟨file, source, document, included, own, pasted, hLocate, hFresh, hParse,
              (ih _ hLess (hMore file) noneVisited_nil rfl).2 ⟨hBelow, hIncluded⟩, hOwn, hPaste,
              (ihDirectives hPasted).2 ⟨hOthers, hContent⟩⟩

end Library

namespace Bundle

variable {lib : Library} {path : Path} {visited : List Path} {document : Document} {bundle : Bundle}

/-- The files around a root are the visited ones and the root. -/
theorem any_entering {root file : Path} : (entering visited root).any file.same = true ↔
    visited.any file.same = true ∨ (entering [] root).any file.same = true := by
  have hRoot : (entering [] root).any file.same = file.same root := by simp [entering]
  rw [hRoot, entering]
  split
  · next hSeen =>
    -- The root is visited, and so is every other spelling of it.
    obtain ⟨seen, mem, hSame⟩ := List.any_eq_true.1 hSeen
    refine ⟨.inl, fun h => h.elim id fun hFile => List.any_eq_true.2 ⟨seen, mem, ?_⟩⟩
    rw [same, beq_iff_eq] at hFile hSame ⊢
    rw [hFile, hSame]
  · simp

/-- A run among visited files is a run without them that includes none of them. -/
theorem resolve_eq_ok_iff_of_visited : resolve lib path visited document = .ok bundle ↔
    resolve lib path [] document = .ok bundle ∧ NoneVisited visited bundle.files.dropLast := by
  have hFiles : ∀ {included content : Content},
      included.paste (.own path.normalize document) = .ok content →
        (ofContent path document content).files.dropLast = included.files := by
    intro included content hPaste
    rw [ofContent, Library.files_of_paste hPaste]
    exact List.dropLast_concat
  have hExpand : ∀ included, lib.expand (entering visited path.normalize) path.normalize.directory
      .empty document.includes = .ok included ↔
        lib.expand (entering [] path.normalize) path.normalize.directory .empty
          document.includes = .ok included ∧ NoneVisited visited included.files :=
    fun _ => Library.expand_eq_ok_iff_of_fewer (fun _ => any_entering) noneVisited_nil
  simp only [resolve_eq_ok_iff_expand, hExpand]
  constructor
  · rintro ⟨included, content, ⟨hRun, hClear⟩, hPaste, rfl⟩
    exact ⟨⟨included, content, hRun, hPaste, rfl⟩, hFiles hPaste ▸ hClear⟩
  · rintro ⟨⟨included, content, hRun, hPaste, rfl⟩, hClear⟩
    exact ⟨included, content, ⟨hRun, hFiles hPaste ▸ hClear⟩, hPaste, rfl⟩

/-- Visited files only forbid. A run among them succeeds exactly if it succeeds without them and
expands none of them below the root, and it then gives the same bundle. So what succeeds among some
files succeeds among fewer, and all runs that succeed give one bundle. -/
theorem resolve_among_visited (lib : Library) (path : Path) (document : Document) :
    (∀ visited bundle, resolve lib path visited document = .ok bundle ↔
      resolve lib path [] document = .ok bundle ∧
        NoneVisited visited bundle.files.dropLast) ∧
    (∀ visited fewer bundle, fewer ⊆ visited → resolve lib path visited document = .ok bundle →
      resolve lib path fewer document = .ok bundle) ∧
    ∀ visited visited' bundle bundle', resolve lib path visited document = .ok bundle →
      resolve lib path visited' document = .ok bundle' → bundle = bundle' := by
  refine ⟨fun visited bundle => resolve_eq_ok_iff_of_visited,
    fun visited fewer bundle subset runs => ?_, fun visited visited' bundle bundle' runs runs' => ?_⟩
  · obtain ⟨hRun, hClear⟩ := resolve_eq_ok_iff_of_visited.1 runs
    exact resolve_eq_ok_iff_of_visited.2 ⟨hRun, hClear.mono subset⟩
  · have hRun := (resolve_eq_ok_iff_of_visited.1 runs).1
    have hRun' := (resolve_eq_ok_iff_of_visited.1 runs').1
    exact Except.ok.inj (hRun.symm.trans hRun')

end Bundle

end TypedConfig
