import Mathlib.Data.List.Induction
import Mathlib.Logic.Relation
import TypedConfig.Library
import TypedConfig.Proofs.Inclusion.Paths
/-!
What normalizing means, apart from any way to compute it: points and double points are resolved one
by one, in any order, until none is left that can be. A path seen from a directory goes on from what
the directory has become, so it does not matter how the directory is written.
-/
namespace TypedConfig

namespace Path

/-! ### Resolving step by step -/

/-- A step in which a path is resolved. A point is left out, and a step upwards is left out together
with the name that it undoes, or alone at the root. -/
inductive Component.Resolves : List Component → List Component → Prop where
  | here (front back : List Component) : Resolves (front ++ .here :: back) (front ++ back)
  | undo (front : List Component) (text : List Char) (back : List Component) :
      Resolves (front ++ .name text :: .up :: back) (front ++ back)
  | root (back : List Component) : Resolves (.root :: .up :: back) (.root :: back)

/-- What components come to when they are resolved as far as they can be. -/
def Component.ResolvesTo (cs ds : List Component) : Prop :=
  Relation.ReflTransGen Resolves cs ds ∧ ∀ es, ¬ Resolves ds es

/-- Components that are resolved, of an absolute path or of a relative one: names behind the root,
or names behind a run of steps upwards. -/
inductive Component.Resolved : Bool → List Component → Prop where
  | absolute (names : List (List Char)) : Resolved true (.root :: names.map .name)
  | relative (n : Nat) (names : List (List Char)) :
      Resolved false (List.replicate n .up ++ names.map .name)

/-- The components that normalizing takes in, the last one first. -/
def taken (p : Path) : List Component := p.components.foldl Component.push []

theorem components_normalize (p : Path) : p.normalize.components = p.taken.reverse :=
  components_ofComponents (normal_of_normalize p)

namespace Component

/-- Only the first component is the root. -/
def RootFirst (cs : List Component) : Prop := Component.root ∉ cs.tail

variable {cs ds : List Component}

theorem Resolves.append (step : Resolves cs ds) (back : List Component) :
    Resolves (cs ++ back) (ds ++ back) := by
  cases step with
  | here front others => simpa using here front (others ++ back)
  | undo front text others => simpa using undo front text (others ++ back)
  | root others => exact root (others ++ back)

/-- Nothing that is taken in is lost or added in a step. -/
theorem Resolves.foldl_push (step : Resolves cs ds) :
    cs.foldl push [] = ds.foldl push [] := by
  cases step with
  | here front back | undo front text back =>
      rw [List.foldl_append, List.foldl_append]
      rfl
  | root back => rfl

theorem foldl_push_eq_of_resolves (steps : Relation.ReflTransGen Resolves cs ds) :
    cs.foldl push [] = ds.foldl push [] := by
  induction steps with
  | refl => rfl
  | tail _ last ih => rw [ih, last.foldl_push]

theorem Resolves.rootFirst (step : Resolves cs ds) (first : RootFirst cs) : RootFirst ds := by
  cases step with
  | here front back =>
      cases front with
      | nil => exact fun mem => first (List.mem_of_mem_tail mem)
      | cons c front => simp_all [RootFirst]
  | undo front text back =>
      cases front with
      | nil => exact fun mem => first (List.mem_cons_of_mem _ (List.mem_of_mem_tail mem))
      | cons c front => simp_all [RootFirst]
  | root back => simp_all [RootFirst]

/-- A step leaves the root at the front, and puts it there in no case. -/
theorem Resolves.head?_eq_root_iff (step : Resolves cs ds) (first : RootFirst cs) :
    ds.head? = some .root ↔ cs.head? = some .root := by
  have hBack : ∀ back : List Component, .root ∉ back → back.head? ≠ some .root :=
    fun back absent head => absent (List.mem_of_head? head)
  cases step with
  | here front back | undo front text back =>
      cases front with
      | nil => simpa using hBack back fun mem => first (by simp [mem])
      | cons c front => simp
  | root back => simp

theorem rootFirst_of_resolves (steps : Relation.ReflTransGen Resolves cs ds)
    (first : RootFirst cs) : RootFirst ds := by
  induction steps with
  | refl => exact first
  | tail _ last ih => exact last.rootFirst ih

theorem rootFirst_components (p : Path) : RootFirst p.components := by
  obtain ⟨others, hOthers, hComponents⟩ := components_eq p
  have hAbsent : Component.root ∉ others := fun mem => by simpa [Plain] using hOthers _ mem
  rcases hComponents with h | h
  · rw [RootFirst, h]
    exact fun mem => hAbsent (List.mem_of_mem_tail mem)
  · rw [RootFirst, h]
    exact hAbsent

/-- One more component is taken in by at most one step. -/
theorem resolves_push {before : List Component} (first : RootFirst before.reverse)
    (c : Component) :
    Relation.ReflTransGen Resolves (before.reverse ++ [c]) (push before c).reverse := by
  have hKept : Relation.ReflTransGen Resolves (before.reverse ++ [c]) (c :: before).reverse := by
    rw [List.reverse_cons]
  cases c with
  | root | name => exact hKept
  | here => exact .single (by simpa [push] using Resolves.here before.reverse [])
  | up =>
      cases before with
      | nil => exact hKept
      | cons last others =>
          cases last with
          | here | up => exact hKept
          | name text => exact .single (by simpa [push] using Resolves.undo others.reverse text [])
          | root =>
              -- the root is the first component, so nothing stands in front of it
              have hNone : others = [] := by
                cases hOthers : others.reverse with
                | nil => simpa using hOthers
                | cons d ds => simp [RootFirst, hOthers] at first
              subst hNone
              exact .single (.root [])

/-- What has been taken in can be reached by steps. -/
theorem resolves_foldl_push (first : RootFirst cs) :
    Relation.ReflTransGen Resolves cs (cs.foldl push []).reverse := by
  induction cs using List.reverseRecOn with
  | nil => exact .refl
  | append_singleton cs c ih =>
      have hFirst : RootFirst cs := by
        cases cs with
        | nil => exact List.not_mem_nil
        | cons d cs => exact fun mem => first (List.mem_append_left _ mem)
      have hFront := ih hFirst
      rw [List.foldl_append]
      refine .trans ?_ (resolves_push (rootFirst_of_resolves hFront hFirst) c)
      exact hFront.lift (· ++ [c]) fun _ _ step => step.append [c]

theorem length_foldl_push_le (cs before : List Component) :
    (cs.foldl push before).length ≤ before.length + cs.length := by
  induction cs generalizing before with
  | nil => exact Nat.le_refl _
  | cons c cs ih =>
      have hPush : (push before c).length ≤ before.length + 1 := by
        cases c with
        | root | name => exact Nat.le_refl _
        | here => exact Nat.le_succ _
        | up =>
            unfold push
            dsimp only
            split
            · exact Nat.le_succ_of_le (Nat.le_succ _)
            · exact Nat.le_succ _
            · exact Nat.le_refl _
      have hRest := ih (push before c)
      rw [List.foldl_cons, List.length_cons]
      omega

theorem Resolves.length_lt (step : Resolves cs ds) : ds.length < cs.length := by
  cases step with
  | here front back | root back => simp
  | undo front text back =>
      simp only [List.length_append, List.length_cons]
      omega

/-- No step applies to what has been taken in: it would have come out shorter. -/
theorem Settled.not_resolves {before : List Component} (settled : Settled before) :
    ∀ es, ¬ Resolves before.reverse es := by
  intro es step
  have hSame : es.foldl Component.push [] = before := by
    rw [← step.foldl_push, settled.foldl_reverse]
  have hLength := length_foldl_push_le es []
  have hShorter := step.length_lt
  rw [hSame] at hLength
  simp only [List.length_reverse, List.length_nil, Nat.zero_add] at hLength hShorter
  omega

/-- Steps in any order come to what has been taken in. -/
theorem resolvesTo_iff (first : RootFirst cs) (settled : Settled (cs.foldl push [])) :
    ResolvesTo cs ds ↔ ds = (cs.foldl push []).reverse := by
  constructor
  · rintro ⟨steps, stuck⟩
    have hRest := resolves_foldl_push (rootFirst_of_resolves steps first)
    rw [foldl_push_eq_of_resolves steps]
    rcases hRest.cases_head with hSame | ⟨es, step, -⟩
    · exact hSame
    · exact absurd step (stuck es)
  · rintro rfl
    exact ⟨resolves_foldl_push first, settled.not_resolves⟩

/-- What has been taken in is names, behind the root or behind steps upwards. -/
theorem Settled.exists_resolved {before : List Component} (settled : Settled before) :
    ∃ absolute, Resolved absolute before.reverse := by
  induction settled with
  | @ups n => exact ⟨false, by simpa using Resolved.relative n []⟩
  | root => exact ⟨true, .absolute []⟩
  | @name text before _ ih =>
      obtain ⟨absolute, hResolved⟩ := ih
      refine ⟨absolute, ?_⟩
      rw [List.reverse_cons]
      generalize before.reverse = cs at hResolved ⊢
      cases hResolved with
      | absolute names => simpa using Resolved.absolute (names ++ [text])
      | relative n names => simpa using Resolved.relative n (names ++ [text])

theorem Resolved.eq_of_head? {absolute : Bool} (resolved : Resolved absolute cs) :
    absolute = (cs.head? == some .root) := by
  cases resolved with
  | absolute names => rfl
  | relative n names =>
      cases n with
      | zero => cases names <;> rfl
      | succ n => rfl

end Component

/-! ### Normal paths -/

theorem Component.root_not_mem_ofPiece (first : Bool) (piece : List Char) :
    .root ∉ ofPiece first piece := by
  rw [ofPiece]
  repeat' split
  all_goals simp

theorem isAbsolute_eq_head? (p : Path) : p.isAbsolute = (p.components.head? == some .root) := by
  obtain ⟨piece, others, hSplit⟩ :=
    List.exists_cons_of_ne_nil (@Text.splitOn_ne_nil '/' p.text.toList)
  rw [components, hSplit]
  cases hAbsolute : p.isAbsolute with
  | true => rfl
  | false =>
      have hAbsent : Component.root ∉
          Component.ofPiece true piece ++ others.flatMap (Component.ofPiece false) := by
        simp [Component.root_not_mem_ofPiece]
      exact (beq_eq_false_iff_ne.2 fun head => hAbsent (List.mem_of_head? head)).symm

theorem components_resolveTo (p : Path) (cs : List Component) :
    Component.ResolvesTo p.components cs ↔ cs = p.normalize.components := by
  rw [components_normalize]
  exact Component.resolvesTo_iff (Component.rootFirst_components p) (settled_of_normalize p)

theorem isAbsolute_normalize (p : Path) : p.normalize.isAbsolute = p.isAbsolute := by
  obtain ⟨hSteps, -⟩ := (components_resolveTo p _).2 rfl
  have hFirst := Component.rootFirst_components p
  have hHead : p.normalize.components.head? = some .root ↔ p.components.head? = some .root := by
    generalize p.normalize.components = cs at hSteps ⊢
    induction hSteps with
    | refl => rfl
    | tail steps last ih =>
        rw [last.head?_eq_root_iff (Component.rootFirst_of_resolves steps hFirst), ih]
  rw [isAbsolute_eq_head?, isAbsolute_eq_head? p, Bool.eq_iff_iff, beq_iff_eq, beq_iff_eq, hHead]

/-! ### Joining -/

/-- The components of a text behind a slash. -/
def pieces (text : List Char) : List Component :=
  (Text.splitOn '/' text).flatMap (Component.ofPiece false)

theorem pieces_append (front back : List Char) :
    pieces (front ++ '/' :: back) = pieces front ++ pieces back := by
  rw [pieces, Text.splitOn_append_cons, List.flatMap_append]
  rfl

/-- A point is not taken in, be it the first component or not. -/
theorem Component.foldl_push_ofPiece (piece : List Char) (before : List Component) :
    (ofPiece true piece).foldl push before = (ofPiece false piece).foldl push before := by
  by_cases hEmpty : piece.isEmpty = true
  · simp [ofPiece, hEmpty]
  · by_cases hPoint : piece = ['.']
    · subst hPoint
      rfl
    · simp [ofPiece, hPoint]

theorem taken_eq (p : Path) : p.taken =
    (pieces p.text.toList).foldl Component.push (if p.isAbsolute then [.root] else []) := by
  obtain ⟨piece, others, hSplit⟩ :=
    List.exists_cons_of_ne_nil (@Text.splitOn_ne_nil '/' p.text.toList)
  rw [taken, components, pieces, hSplit, List.flatMap_cons]
  cases hAbsolute : p.isAbsolute with
  | true =>
      -- nothing stands in front of the first slash
      obtain ⟨rest, hText⟩ : ∃ rest, p.text.toList = [] ++ '/' :: rest := by
        rw [isAbsolute, beq_iff_eq, List.head?_eq_some_iff] at hAbsolute
        exact hAbsolute
      rw [hText, Text.splitOn_append List.not_mem_nil] at hSplit
      obtain ⟨rfl, -⟩ := List.cons.inj hSplit
      rfl
  | false =>
      simp only [Bool.false_eq_true, if_false]
      rw [List.foldl_append, List.foldl_append, Component.foldl_push_ofPiece]

theorem taken_of_append {p base : Path} {front relative : List Char}
    (text : p.text.toList = front ++ '/' :: relative) (same : p.isAbsolute = base.isAbsolute)
    (front_eq : pieces front = pieces base.text.toList) :
    p.taken = (pieces relative).foldl Component.push base.taken := by
  rw [taken_eq, taken_eq base, text, pieces_append, List.foldl_append, front_eq, same]

/-- A path that is seen from a directory goes on from what was taken in for the directory. -/
theorem taken_join {base : Path} {relative : String}
    (isRelative : (Path.mk relative).isAbsolute = false) :
    (base.join relative).taken = (pieces relative.toList).foldl Component.push base.taken := by
  rw [join, if_neg (by simp [isRelative])]
  rcases List.eq_nil_or_concat base.text.toList with hText | ⟨front, last, hText⟩
  · have hEmpty : base.text = "" := String.toList_eq_nil_iff.1 hText
    have hNone : base.taken = [] := by rw [taken_eq, isAbsolute, hText]; rfl
    have hAlone : (base.text ++ relative) = relative := by rw [hEmpty, String.empty_append]
    rw [if_pos (by simp [hEmpty]), hAlone, hNone, taken_eq, isRelative]
    rfl
  · rw [List.concat_eq_append] at hText
    have hNonempty : base.text.isEmpty = false := by
      rw [Bool.eq_false_iff]
      intro h
      rw [String.isEmpty_iff.1 h] at hText
      simp at hText
    have hHead : ∀ more : List Char, (base.text.toList ++ more).head? = base.text.toList.head? := by
      intro more
      rw [hText]
      cases front <;> rfl
    by_cases hSlash : last = '/'
    · subst hSlash
      rw [if_pos (by simp [hText])]
      apply @taken_of_append _ base front
      · simp [hText]
      · rw [isAbsolute, isAbsolute, String.toList_append, hHead]
      · have hSame : pieces front = pieces (front ++ '/' :: []) := by
          rw [pieces_append]
          exact (List.append_nil _).symm
        rw [hText, hSame]
    · rw [if_neg (by simp [hNonempty, hText, hSlash])]
      apply @taken_of_append _ base base.text.toList
      · simp
      · rw [isAbsolute, isAbsolute, String.append_assoc, String.toList_append, hHead]
      · rfl

theorem taken_normalize (p : Path) : p.normalize.taken = p.taken := by
  rw [taken, components_normalize]
  exact (settled_of_normalize p).foldl_reverse

/-- A directory may be written in any way. -/
theorem normalize_join (base : Path) (relative : String) :
    (base.join relative).normalize = (base.normalize.join relative).normalize := by
  cases hAbsolute : (Path.mk relative).isAbsolute with
  | true => rw [join, join, if_pos hAbsolute, if_pos hAbsolute]
  | false =>
      have hTaken : (base.join relative).taken = (base.normalize.join relative).taken := by
        rw [taken_join hAbsolute, taken_join hAbsolute, taken_normalize]
      exact congrArg (fun cs => ofComponents cs.reverse) hTaken

/-- Normalizing a path gives the one path that it is resolved to: points and double points can be
resolved in any order, until there is no step left. That path is normal, it is absolute just if the
path is, and it is names alone, behind the root or behind steps upwards. A path seen from a
directory depends on what the directory is resolved to and on nothing else, so a library comes to
the same file, or finds none in the same way, from any spelling of the directory. -/
theorem normalize_resolves (p : Path) :
    p.normalize.normalize = p.normalize ∧
      (∀ cs, Component.ResolvesTo p.components cs ↔ cs = p.normalize.components) ∧
      Component.Resolved p.normalize.isAbsolute p.normalize.components ∧
      p.normalize.isAbsolute = p.isAbsolute ∧
      ∀ relative, (p.join relative).normalize = (p.normalize.join relative).normalize ∧
        ∀ lib : Library, lib.locate (lib.target p relative) =
          lib.locate (lib.target p.normalize relative) := by
  refine ⟨normalize_normalize p, components_resolveTo p, ?_, isAbsolute_normalize p,
    fun relative => ⟨normalize_join p relative, fun lib => ?_⟩⟩
  · obtain ⟨absolute, hResolved⟩ := (settled_of_normalize p).exists_resolved
    rw [← taken, ← components_normalize] at hResolved
    rwa [isAbsolute_eq_head?, ← hResolved.eq_of_head?]
  · have hTarget : (lib.target p relative).normalize =
        (lib.target p.normalize relative).normalize := by
      have hJoin := normalize_join p relative
      rw [Library.target, Library.target]
      cases lib.storage with
      | memory => exact congrArg normalize hJoin
      | disk => exact hJoin
    rw [Library.locate, Library.locate, Library.find?, Library.find?, hTarget]

/-- A step upwards undoes a name wherever that was written, and goes on above a relative path. -/
example : (Path.join ⟨"net/./../.."⟩ "x/../../a").normalize = ⟨"../../a"⟩ ∧
    (Path.join ⟨"/.."⟩ "../a/.").normalize = ⟨"/a"⟩ := by
  decide

end Path

end TypedConfig
