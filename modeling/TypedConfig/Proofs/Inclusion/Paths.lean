import TypedConfig.Path
/-!
Normal paths. A normal path is cut into the components that it was put together from, so two normal
paths are one path only if they are spelt alike.
-/
namespace TypedConfig

namespace Text

variable {sep : Char}

theorem splitOn_ne_nil (cs : List Char) : splitOn sep cs ≠ [] := by
  cases cs with
  | nil => simp [splitOn]
  | cons c rest =>
      rw [splitOn]
      split
      · simp
      · split <;> simp

theorem splitOn_cons {c : Char} {rest piece : List Char} {pieces : List (List Char)}
    (split : splitOn sep rest = piece :: pieces) :
    splitOn sep (c :: rest) = if c = sep then [] :: piece :: pieces else (c :: piece) :: pieces := by
  rw [splitOn, split]

/-- The pieces do not have the separator in them. -/
theorem not_mem_of_mem_splitOn {cs : List Char} : ∀ piece ∈ splitOn sep cs, sep ∉ piece := by
  induction cs with
  | nil => simp [splitOn]
  | cons c rest ih =>
      obtain ⟨first, pieces, hSplit⟩ := List.exists_cons_of_ne_nil (splitOn_ne_nil rest)
      rw [hSplit] at ih
      obtain ⟨hFirst, hPieces⟩ := List.forall_mem_cons.1 ih
      rw [splitOn_cons hSplit]
      by_cases hc : c = sep
      · rw [if_pos hc]
        exact List.forall_mem_cons.2 ⟨List.not_mem_nil, ih⟩
      · rw [if_neg hc]
        refine List.forall_mem_cons.2 ⟨?_, hPieces⟩
        rw [List.mem_cons, not_or]
        exact ⟨Ne.symm hc, hFirst⟩

theorem splitOn_append_cons (front back : List Char) :
    splitOn sep (front ++ sep :: back) = splitOn sep front ++ splitOn sep back := by
  induction front with
  | nil =>
      obtain ⟨piece, pieces, hSplit⟩ := List.exists_cons_of_ne_nil (@splitOn_ne_nil sep back)
      rw [List.nil_append, splitOn_cons hSplit, if_pos rfl, hSplit]
      rfl
  | cons c front ih =>
      obtain ⟨piece, pieces, hSplit⟩ := List.exists_cons_of_ne_nil (@splitOn_ne_nil sep front)
      rw [hSplit] at ih
      rw [List.cons_append, splitOn_cons ih, splitOn_cons hSplit]
      split <;> rfl

theorem splitOn_of_not_mem {piece : List Char} (absent : sep ∉ piece) :
    splitOn sep piece = [piece] := by
  induction piece with
  | nil => rfl
  | cons c piece ih =>
      rw [List.mem_cons, not_or] at absent
      obtain ⟨hc, hPiece⟩ := absent
      rw [splitOn_cons (ih hPiece), if_neg (Ne.symm hc)]

theorem splitOn_append {piece rest : List Char} (absent : sep ∉ piece) :
    splitOn sep (piece ++ sep :: rest) = piece :: splitOn sep rest := by
  rw [splitOn_append_cons, splitOn_of_not_mem absent]
  rfl

/-- Pieces without the separator are found again between separators. -/
theorem splitOn_joinWith {piece : List Char} {pieces : List (List Char)}
    (absent : ∀ p ∈ piece :: pieces, sep ∉ p) :
    splitOn sep (joinWith [sep] (piece :: pieces)) = piece :: pieces := by
  induction pieces generalizing piece with
  | nil => exact splitOn_of_not_mem (absent piece List.mem_cons_self)
  | cons next pieces ih =>
      obtain ⟨hPiece, hPieces⟩ := List.forall_mem_cons.1 absent
      have hJoin : joinWith [sep] (piece :: next :: pieces) =
          piece ++ sep :: joinWith [sep] (next :: pieces) := by
        simp [joinWith]
      rw [hJoin, splitOn_append hPiece, ih hPieces]

end Text

namespace Path

/-- A component that normalizing keeps wherever it cannot be undone. -/
def Component.Plain : Component → Prop
  | .root => False
  | .here => False
  | .up => True
  | .name text => text ≠ [] ∧ '/' ∉ text ∧ text ≠ ['.'] ∧ text ≠ ['.', '.']

/-- The components of a normal path: plain ones, maybe behind the root. -/
def Normal (cs : List Component) : Prop :=
  ∃ plain, (∀ c ∈ plain, Component.Plain c) ∧ (cs = plain ∨ cs = .root :: plain)

theorem Component.plain_of_mem_ofPiece {first : Bool} {piece : List Char} {c : Component}
    (absent : '/' ∉ piece) (mem : c ∈ ofPiece first piece) : c = .here ∨ Plain c := by
  rw [ofPiece] at mem
  split at mem
  · cases mem
  · next hEmpty =>
    split at mem
    · split at mem
      · exact .inl (by simpa using mem)
      · cases mem
    · next hPoint =>
      split at mem
      · obtain rfl : c = .up := by simpa using mem
        exact .inr trivial
      · next hPoints =>
        obtain rfl : c = .name piece := by simpa using mem
        exact .inr ⟨by simpa using hEmpty, absent, hPoint, hPoints⟩

theorem Component.ofPiece_text {first : Bool} {c : Component} (plain : Plain c) :
    ofPiece first c.text = [c] := by
  cases c with
  | root => exact plain.elim
  | here => exact plain.elim
  | up => rfl
  | name text =>
      obtain ⟨hEmpty, -, hPoint, hPoints⟩ := plain
      simp [ofPiece, Component.text, hEmpty, hPoint, hPoints]

theorem Component.slash_not_mem_text {c : Component} (plain : Plain c) : '/' ∉ c.text := by
  cases c with
  | root => exact plain.elim
  | here => exact plain.elim
  | up => decide
  | name text => exact plain.2.1

theorem Component.text_ne_nil {c : Component} (plain : Plain c) : c.text ≠ [] := by
  cases c with
  | root => exact plain.elim
  | here => exact plain.elim
  | up => simp [Component.text]
  | name text => exact plain.1

/-- The components of a written path are plain ones and points, maybe behind the root. -/
theorem components_eq (p : Path) : ∃ others, (∀ c ∈ others, c = .here ∨ Component.Plain c) ∧
    (p.components = others ∨ p.components = .root :: others) := by
  obtain ⟨piece, pieces, hSplit⟩ :=
    List.exists_cons_of_ne_nil (@Text.splitOn_ne_nil '/' p.text.toList)
  have hAbsent : ∀ q ∈ piece :: pieces, '/' ∉ q := hSplit ▸ Text.not_mem_of_mem_splitOn
  obtain ⟨hPiece, hPieces⟩ := List.forall_mem_cons.1 hAbsent
  have hOthers : ∀ c ∈ pieces.flatMap (Component.ofPiece false), c = .here ∨ c.Plain := by
    intro c mem
    obtain ⟨q, hq, hc⟩ := List.mem_flatMap.1 mem
    exact Component.plain_of_mem_ofPiece (hPieces q hq) hc
  rw [components, hSplit]
  dsimp only
  by_cases hRoot : p.isAbsolute = true
  · rw [if_pos hRoot]
    exact ⟨_, hOthers, .inr rfl⟩
  · rw [if_neg hRoot]
    refine ⟨_, fun c mem => ?_, .inl rfl⟩
    rcases List.mem_append.1 mem with mem | mem
    · exact Component.plain_of_mem_ofPiece hPiece mem
    · exact hOthers c mem

theorem normal_append {cs : List Component} {c : Component} (normal : Normal cs)
    (plain : c.Plain) : Normal (cs ++ [c]) := by
  have hPlain : ∀ others : List Component, (∀ d ∈ others, d.Plain) → ∀ d ∈ others ++ [c], d.Plain := by
    intro others hOthers d mem
    rcases List.mem_append.1 mem with mem | mem
    · exact hOthers d mem
    · exact List.mem_singleton.1 mem ▸ plain
  obtain ⟨others, hOthers, rfl | rfl⟩ := normal
  · exact ⟨cs ++ [c], hPlain _ hOthers, .inl rfl⟩
  · exact ⟨others ++ [c], hPlain _ hOthers, .inr rfl⟩

theorem normal_of_append {cs : List Component} {c : Component} (normal : Normal (cs ++ [c]))
    (other : c ≠ .root) : Normal cs := by
  obtain ⟨others, hOthers, h | h⟩ := normal
  · exact ⟨cs, fun d mem => hOthers d (h ▸ List.mem_append_left _ mem), .inl rfl⟩
  · cases cs with
    | nil => exact absurd (List.cons.inj h).1 other
    | cons d cs =>
        obtain ⟨rfl, hTail⟩ := List.cons.inj h
        exact ⟨cs, fun e mem => hOthers e (hTail ▸ List.mem_append_left _ mem), .inr rfl⟩

/-- The components taken in so far, the last one first, make up a normal path. -/
theorem normal_push {before : List Component} {c : Component} (normal : Normal before.reverse)
    (component : c = .here ∨ c.Plain) : Normal (Component.push before c).reverse := by
  cases c with
  | root => simp [Component.Plain] at component
  | here => exact normal
  | name text =>
      have hPlain : (Component.name text).Plain := by simpa using component
      have hReverse : (Component.push before (.name text)).reverse = before.reverse ++ [.name text] :=
        List.reverse_cons
      rw [hReverse]
      exact normal_append normal hPlain
  | up =>
      have hUp : Normal (before.reverse ++ [.up]) := normal_append normal trivial
      cases before with
      | nil => exact hUp
      | cons last before =>
          rw [List.reverse_cons] at normal
          cases last with
          | name text => exact normal_of_append normal (by simp)
          | root =>
              have hSame : Component.push (.root :: before) .up = .root :: before := rfl
              rw [hSame, List.reverse_cons]
              exact normal
          | here | up =>
              rw [← List.reverse_cons] at hUp
              exact hUp

theorem normal_foldl_push {before cs : List Component} (normal : Normal before.reverse)
    (components : ∀ c ∈ cs, c = .here ∨ c.Plain) :
    Normal (cs.foldl Component.push before).reverse := by
  induction cs generalizing before with
  | nil => exact normal
  | cons c cs ih =>
      obtain ⟨hc, hcs⟩ := List.forall_mem_cons.1 components
      exact ih (normal_push normal hc) hcs

theorem normal_of_normalize (p : Path) :
    Normal (p.components.foldl Component.push []).reverse := by
  obtain ⟨others, hOthers, hComponents | hComponents⟩ := components_eq p
  · rw [hComponents]
    exact normal_foldl_push ⟨[], by simp, .inl rfl⟩ hOthers
  · rw [hComponents, List.foldl_cons]
    exact normal_foldl_push ⟨[], by simp, .inr rfl⟩ hOthers

/-- Normalizing leaves the components of a normal path. -/
theorem exists_normal (p : Path) : ∃ cs, Normal cs ∧ p.normalize = ofComponents cs :=
  ⟨_, normal_of_normalize p, rfl⟩

theorem Component.slash_not_mem_texts {cs : List Component} (plain : ∀ c ∈ cs, c.Plain) :
    ∀ text ∈ cs.map Component.text, '/' ∉ text := by
  intro text mem
  obtain ⟨c, hc, rfl⟩ := List.mem_map.1 mem
  exact slash_not_mem_text (plain c hc)

theorem Component.flatMap_ofPiece_text {cs : List Component} (plain : ∀ c ∈ cs, c.Plain) :
    (cs.map Component.text).flatMap (ofPiece false) = cs := by
  induction cs with
  | nil => rfl
  | cons c cs ih =>
      obtain ⟨hc, hcs⟩ := List.forall_mem_cons.1 plain
      rw [List.map_cons, List.flatMap_cons, ofPiece_text hc, ih hcs]
      rfl

theorem head?_joinWith {piece : List Char} {pieces : List (List Char)} {sep : List Char}
    (nonempty : piece ≠ []) : (Text.joinWith sep (piece :: pieces)).head? = piece.head? := by
  obtain ⟨c, cs, rfl⟩ := List.exists_cons_of_ne_nil nonempty
  cases pieces <;> simp [Text.joinWith]

/-- A relative path begins with its first component, so it is not taken for an absolute one. -/
theorem components_ofComponents_of_plain {cs : List Component} (plain : ∀ c ∈ cs, c.Plain) :
    (ofComponents cs).components = cs := by
  cases cs with
  | nil => rfl
  | cons c others =>
      obtain ⟨hc, hOthers⟩ := List.forall_mem_cons.1 plain
      have hText : (ofComponents (c :: others)).text.toList =
          Text.joinWith ['/'] ((c :: others).map Component.text) := by
        cases c with
        | root => exact hc.elim
        | _ => simp [ofComponents]
      have hSplit : Text.splitOn '/' (ofComponents (c :: others)).text.toList =
          c.text :: others.map Component.text := by
        rw [hText]
        exact Text.splitOn_joinWith (Component.slash_not_mem_texts plain)
      have hRelative : (ofComponents (c :: others)).isAbsolute = false := by
        rw [isAbsolute, hText, List.map_cons, head?_joinWith (Component.text_ne_nil hc)]
        have hSlash := Component.slash_not_mem_text hc
        cases hChars : c.text with
        | nil => rfl
        | cons first chars =>
            rw [hChars, List.mem_cons, not_or] at hSlash
            simpa using Ne.symm hSlash.1
      rw [components, hSplit]
      simp [hRelative, Component.ofPiece_text hc, Component.flatMap_ofPiece_text hOthers]

/-- An absolute path begins with an empty piece, which stands for the root. -/
theorem components_ofComponents_root {cs : List Component} (plain : ∀ c ∈ cs, c.Plain) :
    (ofComponents (.root :: cs)).components = .root :: cs := by
  have hText : (ofComponents (.root :: cs)).text.toList =
      [] ++ '/' :: Text.joinWith ['/'] (cs.map Component.text) := by
    simp [ofComponents]
  have hSplit : Text.splitOn '/' (ofComponents (.root :: cs)).text.toList =
      [] :: Text.splitOn '/' (Text.joinWith ['/'] (cs.map Component.text)) := by
    rw [hText]
    exact Text.splitOn_append List.not_mem_nil
  have hAbsolute : (ofComponents (.root :: cs)).isAbsolute = true := by
    rw [isAbsolute, hText]
    rfl
  rw [components, hSplit]
  simp only [hAbsolute, if_true]
  cases cs with
  | nil => rfl
  | cons c others =>
      have hAbsent := Component.slash_not_mem_texts plain
      rw [List.map_cons] at hAbsent ⊢
      rw [Text.splitOn_joinWith hAbsent, ← List.map_cons, Component.flatMap_ofPiece_text plain]
      rfl

theorem components_ofComponents {cs : List Component} (normal : Normal cs) :
    (ofComponents cs).components = cs := by
  obtain ⟨plain, hPlain, rfl | rfl⟩ := normal
  · exact components_ofComponents_of_plain hPlain
  · exact components_ofComponents_root hPlain

/-- Two normal paths are one path only if they are spelt alike. -/
theorem normalize_same_iff {p q : Path} :
    p.normalize.same q.normalize = true ↔ p.normalize = q.normalize := by
  obtain ⟨cs, hcs, hp⟩ := exists_normal p
  obtain ⟨ds, hds, hq⟩ := exists_normal q
  rw [hp, hq, same, components_ofComponents hcs, components_ofComponents hds, beq_iff_eq]
  constructor
  · rintro rfl
    rfl
  · intro h
    rw [← components_ofComponents hcs, h, components_ofComponents hds]

/-- Components that normalizing has taken in, the last one first: names, behind the root or behind
steps upwards with nothing to undo. -/
inductive Component.Settled : List Component → Prop where
  | ups {n : Nat} : Settled (List.replicate n .up)
  | root : Settled [.root]
  | name {text : List Char} {before : List Component} (others : Settled before) :
      Settled (.name text :: before)

theorem Component.Settled.push {before : List Component} {c : Component} (settled : Settled before)
    (component : c = .here ∨ c.Plain) : Settled (Component.push before c) := by
  cases c with
  | root => simp [Component.Plain] at component
  | here => exact settled
  | name text => exact .name settled
  | up =>
      cases settled with
      | @ups n =>
          cases n with
          | zero => exact .ups (n := 1)
          | succ n => exact .ups (n := n + 2)
      | root => exact .root
      | name others => exact others

theorem Component.Settled.foldl_push {before cs : List Component} (settled : Settled before)
    (components : ∀ c ∈ cs, c = .here ∨ c.Plain) : Settled (cs.foldl Component.push before) := by
  induction cs generalizing before with
  | nil => exact settled
  | cons c cs ih =>
      obtain ⟨hc, hcs⟩ := List.forall_mem_cons.1 components
      exact ih (settled.push hc) hcs

/-- Nothing is undone when settled components are taken in again. -/
theorem Component.Settled.foldl_reverse {before : List Component} (settled : Settled before) :
    before.reverse.foldl Component.push [] = before := by
  induction settled with
  | @ups n =>
      rw [List.reverse_replicate]
      induction n with
      | zero => rfl
      | succ n ih =>
          rw [List.replicate_succ', List.foldl_append, ih, ← List.replicate_succ']
          cases n <;> rfl
  | root => rfl
  | name _ ih =>
      rw [List.reverse_cons, List.foldl_append, ih]
      rfl

theorem settled_of_normalize (p : Path) :
    Component.Settled (p.components.foldl Component.push []) := by
  obtain ⟨others, hOthers, hComponents | hComponents⟩ := components_eq p
  · rw [hComponents]
    exact Component.Settled.foldl_push (.ups (n := 0)) hOthers
  · rw [hComponents, List.foldl_cons]
    exact Component.Settled.root.foldl_push hOthers

/-- A normal path stays as it is. -/
theorem normalize_normalize (p : Path) : p.normalize.normalize = p.normalize := by
  rw [normalize.eq_def p.normalize, normalize.eq_def p,
    components_ofComponents (normal_of_normalize p), (settled_of_normalize p).foldl_reverse]

end Path

end TypedConfig
