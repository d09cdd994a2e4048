import Mathlib.Data.List.Chain
import TypedConfig.Proofs.Inclusion.Exactness
/-!
Calls inside each other. Resolving a file that a document includes is a call inside the call that
resolves the document. Each such call is for a file of the library that is not yet being expanded,
and so there are never more calls inside each other than the library has files, and the outermost
one. What a call does is told here apart from how the calls that it makes are answered, so that
their depth can be limited.
-/
namespace TypedConfig

/-- A call: a document that was read from a path, and the files that are being expanded around
it. -/
structure Call where
  path : Path
  visited : List Path
  document : Document

namespace Call

variable (lib : Library)

/-- The file that a call is for. -/
def file (call : Call) : Path := Bundle.identity lib call.path

/-- The files that a call hands down to those that it makes. -/
def chain (call : Call) : List Path := Bundle.entering call.visited (call.file lib)

/-- What a call gives. -/
def answer (call : Call) : Except Diagnostic Bundle :=
  Bundle.resolve lib call.path call.visited call.document

/-- The call that a directive makes, or why it makes none. -/
def next (call : Call) (directive : Include) : Except Diagnostic Call :=
  let target := lib.target (call.file lib).directory directive.path
  match lib.locate target with
  | .error fault => .error ⟨.inclusion (.notFound target.text fault), directive.span⟩
  | .ok (file, source) =>
    if (call.chain lib).any file.same then
      .error ⟨.inclusion (.circular ((call.chain lib ++ [file]).map Path.shortName)),
        directive.span⟩
    else (Document.parse file.text source).map (Call.mk file (call.chain lib))

section

variable (answer? : Call → Option (Except Diagnostic Bundle)) (call : Call)

/-- Follows directives behind the content before them, where the calls that they make are answered
as told: the calls, in order, and what comes of it unless one of them is not answered. -/
def follow (before : Content) : List Include → List Call × Option (Except Diagnostic Content)
  | [] => ([], some (.ok before))
  | directive :: others =>
    match call.next lib directive with
    | .error d => ([], some (.error d))
    | .ok made =>
      match answer? made with
      | none => ([made], none)
      | some result =>
        match result.bind fun bundle => before.paste bundle.content with
        | .error d => ([made], some (.error d))
        | .ok pasted =>
          let later := follow pasted others
          (made :: later.1, later.2)

/-- The calls that a call makes itself, where they are answered as told. -/
def made : List Call := (follow lib answer? call .empty call.document.includes).1

/-- What a call gives, where the calls that it makes are answered as told. -/
def run : Option (Except Diagnostic Bundle) :=
  (follow lib answer? call .empty call.document.includes).2.map fun result => do
    let included ← result
    let content ← included.paste (.own (call.file lib) call.document)
    return Bundle.ofContent call.path call.document content

end

/-- What a call gives if no more than so many calls may be inside each other, itself included. -/
def runWithin : Nat → Call → Option (Except Diagnostic Bundle)
  | 0 => fun _ => none
  | depth + 1 => run lib (runWithin depth)

/-- A call makes another one. -/
def Makes (caller callee : Call) : Prop := callee ∈ caller.made lib fun c => some (c.answer lib)

variable {lib} {call caller callee : Call} {before : Content} {directive : Include}
  {directives : List Include} {answer? other? : Call → Option (Except Diagnostic Bundle)}

/-! ### What one directive does -/

theorem file_eq_normalize : call.file lib = call.path.normalize := Bundle.identity_eq_normalize

/-- A call is for a file that the library has under that very path, and it is handed the files that
the caller hands down. Its file is not one of them, and it hands them down with its file added. -/
structure Enters (lib : Library) (caller callee : Call) : Prop where
  stored : ∃ source, lib.locate callee.path = .ok (callee.path, source) ∧
    Document.parse callee.path.text source = .ok callee.document
  handed : callee.visited = caller.chain lib
  fresh : callee.visited.any callee.path.same = false
  entered : callee.chain lib = callee.visited ++ [callee.path]

theorem enters_of_next (makes : call.next lib directive = .ok callee) : Enters lib call callee := by
  rw [next] at makes
  split at makes
  · cases makes
  · next file source hLocate =>
    obtain ⟨hFile, hLookup⟩ := Library.locate_eq_ok_iff.1 hLocate
    split at makes
    · cases makes
    · next hFresh =>
      cases hParse : Document.parse file.text source with
      | error d =>
          rw [hParse] at makes
          cases makes
      | ok document =>
          rw [hParse] at makes
          cases makes
          have hSame : file.normalize = file := by rw [hFile, Path.normalize_normalize]
          refine ⟨⟨source, Library.locate_eq_ok_iff.2 ⟨hSame.symm, ?_⟩, hParse⟩, rfl,
            by simpa using hFresh, ?_⟩
          · rw [hSame, hFile, hLookup]
          · rw [chain, file_eq_normalize, Bundle.entering, hSame, if_neg hFresh]

/-- The call that a directive makes gives what its file contributes. -/
theorem expand_cons_eq_answer {others : List Include} :
    lib.expand (call.chain lib) (call.file lib).directory before (directive :: others) =
      (do
        let made ← call.next lib directive
        let bundle ← made.answer lib
        let pasted ← before.paste bundle.content
        lib.expand (call.chain lib) (call.file lib).directory pasted others) := by
  rw [Library.expand_cons, next]
  cases hLocate : lib.locate (lib.target (call.file lib).directory directive.path) with
  | error fault => rfl
  | ok found =>
      obtain ⟨file, source⟩ := found
      obtain ⟨hFile, -⟩ := Library.locate_eq_ok_iff.1 hLocate
      have hSame : file.normalize = file := by rw [hFile, Path.normalize_normalize]
      dsimp only
      split
      · rfl
      · next hFresh =>
        cases Document.parse file.text source with
        | error d => rfl
        | ok document =>
            simp only [answer, Bundle.resolve_eq, hSame, Bundle.entering, if_neg hFresh, bind,
              Except.bind, Except.map]
            cases lib.expand (call.chain lib ++ [file]) file.directory .empty document.includes with
            | error d => rfl
            | ok included =>
                dsimp only
                cases included.paste (.own file document) <;> rfl

/-! ### What a call does -/

/-- By induction on the directives: the content is what the directives expand to if every call is
answered with what it gives. -/
theorem follow_answer :
    (call.follow lib (fun c => some (c.answer lib)) before directives).2 =
      some (lib.expand (call.chain lib) (call.file lib).directory before directives) := by
  induction directives generalizing before with
  | nil => rw [follow, Library.expand]
  | cons directive others ih =>
      rw [follow, expand_cons_eq_answer]
      cases call.next lib directive with
      | error d => rfl
      | ok made =>
          dsimp only [bind, Except.bind]
          cases made.answer lib with
          | error d => rfl
          | ok bundle =>
              dsimp only
              cases before.paste bundle.content with
              | error d => rfl
              | ok pasted => exact ih

theorem run_answer : call.run lib (fun c => some (c.answer lib)) = some (call.answer lib) := by
  rw [run, follow_answer, answer, Bundle.resolve_eq, Option.map_some, chain, file_eq_normalize]

/-- By induction on the directives: only the answers to the calls that are made count. -/
theorem follow_congr
    (same : ∀ c ∈ (call.follow lib other? before directives).1, answer? c = other? c) :
    call.follow lib answer? before directives = call.follow lib other? before directives := by
  induction directives generalizing before with
  | nil => rfl
  | cons directive others ih =>
      rw [follow] at same
      rw [follow, follow]
      cases hNext : call.next lib directive with
      | error d => rfl
      | ok made =>
          simp only [hNext] at same
          have hMade : answer? made = other? made := by
            apply same
            split
            · exact List.mem_singleton_self _
            · split <;> exact List.mem_cons_self
          dsimp only
          rw [hMade]
          split
          · rfl
          · next result hAnswer =>
            simp only [hAnswer] at same
            split
            · rfl
            · next pasted hPasted =>
              simp only [hPasted] at same
              rw [ih fun c mem => same c (List.mem_cons_of_mem _ mem)]

theorem run_congr (same : ∀ c ∈ call.made lib other?, answer? c = other? c) :
    call.run lib answer? = call.run lib other? := by
  rw [run, run, follow_congr same]

/-- However calls are answered, each one that is made enters a file. -/
theorem enters_of_mem_follow (mem : callee ∈ (call.follow lib answer? before directives).1) :
    Enters lib call callee := by
  induction directives generalizing before with
  | nil => cases mem
  | cons directive others ih =>
      rw [follow] at mem
      split at mem
      · cases mem
      · next made hNext =>
        split at mem
        · rw [List.mem_singleton.1 mem]
          exact enters_of_next hNext
        · split at mem
          · rw [List.mem_singleton.1 mem]
            exact enters_of_next hNext
          · rcases List.mem_cons.1 mem with rfl | mem
            · exact enters_of_next hNext
            · exact ih mem

/-! ### How deep calls are -/

/-- A call that is made leaves one file less to enter. -/
theorem Enters.unvisited_lt (enters : Enters lib caller callee) :
    lib.unvisited (callee.chain lib) < lib.unvisited (caller.chain lib) := by
  obtain ⟨source, hLocate, -⟩ := enters.stored
  rw [enters.entered, ← enters.handed]
  exact Library.unvisited_lt hLocate (by simp [enters.fresh])

/-- By induction on the depth that is allowed: each call that is made needs one less. -/
theorem runWithin_eq_answer {depth : Nat} (enough : lib.unvisited (call.chain lib) < depth) :
    runWithin lib depth call = some (call.answer lib) := by
  induction depth generalizing call with
  | zero => cases enough
  | succ depth ih =>
      rw [runWithin, ← run_answer]
      apply run_congr
      intro c mem
      have hLess := (enters_of_mem_follow mem).unvisited_lt
      exact ih (by omega)

/-- By induction on the calls: each one that is made inside the others leaves one file less. -/
theorem length_add_unvisited_le {calls : List Call}
    (inside : List.IsChain (Makes lib) (call :: calls)) :
    calls.length ≤ lib.unvisited (call.chain lib) := by
  induction calls generalizing call with
  | nil => exact Nat.zero_le _
  | cons callee calls ih =>
      rw [List.isChain_cons_cons] at inside
      have hLess := (enters_of_mem_follow inside.1).unvisited_lt
      have hCalls := ih inside.2
      rw [List.length_cons]
      omega

end Call

theorem Library.unvisited_le (lib : Library) (visited : List Path) :
    lib.unvisited visited ≤ lib.files.length :=
  List.countP_le_length

/-- Resolving a document ends, with calls inside each other to no greater depth than the library has
files and one: limited to that depth, every call that it makes is answered, and it gives what it
gives without a limit. A call is made for a file that the library has under that very path and that
is not among the files handed to it, which are those that the caller hands down, and it hands them
down with its own file behind them. -/
theorem Call.runs_within_files (lib : Library) (call : Call) :
    call.runWithin lib (lib.files.length + 1) =
      some (Bundle.resolve lib call.path call.visited call.document) ∧
    (∀ caller callee, Makes lib caller callee →
      callee.path ∈ lib.files.map Prod.fst ∧ Enters lib caller callee) ∧
    ∀ calls, List.IsChain (Makes lib) (call :: calls) →
      (call :: calls).length ≤ lib.files.length + 1 := by
  have hFiles := lib.unvisited_le (call.chain lib)
  refine ⟨runWithin_eq_answer (by omega), fun caller callee makes => ?_, fun calls inside => ?_⟩
  · have hEnters := enters_of_mem_follow makes
    obtain ⟨source, hLocate, -⟩ := hEnters.stored
    exact ⟨List.mem_map_of_mem (Library.mem_of_locate hLocate), hEnters⟩
  · have hCalls := length_add_unvisited_le inside
    rw [List.length_cons]
    omega

end TypedConfig
