import TypedConfig.Path
/-!
Sets of source files. A library holds finitely many files under normal paths. One that is kept in
memory resolves the paths of its includes; one that stands for a disk passes them on as they are
joined, and looks only at paths.
-/
namespace TypedConfig

/-- Where the files of a library are kept. -/
inductive Storage where
  | memory
  | disk
deriving Repr, DecidableEq

/-- Why a file could not be read: there is none at the path. -/
structure FileFault where
  storage : Storage
  path : Path
deriving Repr, DecidableEq

/-- The wording of a file fault. -/
def FileFault.message (f : FileFault) : String :=
  match f.storage with
  | .memory => "no such file in memory: " ++ f.path.text
  | .disk => "No such file or directory (os error 2)"

/-- A finite set of files, each under its normal path. -/
structure Library where
  storage : Storage
  files : List (Path × String)
deriving Repr, DecidableEq

namespace Library

/-- No files in memory. -/
def empty : Library := ⟨.memory, []⟩

/-- A disk on which no file is found. -/
def emptyDisk : Library := ⟨.disk, []⟩

/-- Adds a file, or replaces the one that had its path. -/
def add (lib : Library) (path : Path) (source : String) : Library :=
  { lib with
    files := (path.normalize, source) :: lib.files.filter fun file => file.1 != path.normalize }

/-- The text of the file at a path. -/
def find? (lib : Library) (path : Path) : Option String :=
  lib.files.lookup path.normalize

/-- Finds a file: the one path by which the library knows it, and its text. -/
def locate (lib : Library) (path : Path) : Except FileFault (Path × String) :=
  match lib.find? path with
  | some source => .ok (path.normalize, source)
  | none => .error ⟨lib.storage, path.normalize⟩

/-- The text of the file at a path, or why there is none. -/
def read (lib : Library) (path : Path) : Except FileFault String :=
  (lib.locate path).map Prod.snd

/-- The one path by which the library knows a file. -/
def canonical (lib : Library) (path : Path) : Except FileFault Path :=
  (lib.locate path).map Prod.fst

/-- The path that a file in a directory includes. -/
def target (lib : Library) (directory : Path) (written : String) : Path :=
  match lib.storage with
  | .memory => (directory.join written).normalize
  | .disk => directory.join written

/-- How many files of the library are not in a list of paths. -/
def unvisited (lib : Library) (visited : List Path) : Nat :=
  lib.files.countP fun file => !visited.any file.1.same

theorem mem_of_locate {lib : Library} {path found : Path} {source : String}
    (h : lib.locate path = .ok (found, source)) : (found, source) ∈ lib.files := by
  unfold locate find? at h
  split at h
  · next hs =>
    cases h
    rw [List.lookup_eq_some_iff] at hs
    obtain ⟨before, after, heq, -⟩ := hs
    simp [heq]
  · cases h

/-- A file that is found and has not been visited makes one less once it is visited. -/
theorem unvisited_lt {lib : Library} {path found : Path} {source : String} {visited : List Path}
    (h : lib.locate path = .ok (found, source)) (fresh : ¬ visited.any found.same = true) :
    lib.unvisited (visited ++ [found]) < lib.unvisited visited := by
  have hmem := mem_of_locate h
  unfold unvisited
  obtain ⟨before, after, heq⟩ := List.append_of_mem hmem
  rw [heq]
  have hle : ∀ files : List (Path × String),
      files.countP (fun file => !(visited ++ [found]).any file.1.same) ≤
        files.countP (fun file => !visited.any file.1.same) := fun files =>
    List.countP_mono_left fun file _ hf => by simp_all
  have h1 := hle before
  have h2 := hle after
  have hself : found.same found = true := by simp [Path.same]
  simp only [List.countP_append, List.countP_cons]
  simp [hself, fresh] at h1 h2 ⊢
  omega

end Library

end TypedConfig
