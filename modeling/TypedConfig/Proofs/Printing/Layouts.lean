import Mathlib.Data.List.Forall2
import TypedConfig.Proofs.Grammar.Lists
import TypedConfig.Proofs.Printing.Lexing
/-!
Printed text that reads as a construct of the grammar, and how the layouts of lists are read. A
payload belongs to the word that it directly follows, so where a word may be the end of an item, the
next item must not begin with a bracket.
-/
namespace TypedConfig

/-- The first token is none that begins a payload. -/
def Token.Unattached (tokens : List Token) : Prop :=
  ∃ t later, tokens = t :: later ∧ t.kind ≠ .mark (.opening .round) ∧
    t.kind ≠ .mark (.opening .brace)

namespace Production

open Layout Token

variable {α γ : Type} {file : String}

/-- Wherever the text stands, it reads up to its end as a construct of which `P` holds. If the
construct could go on with a payload, none may follow. -/
def Reads (file : String) (R : Production α) (goesOn : Prop) (text : List Char) (P : α → Prop) :
    Prop :=
  ∀ p rest, Delimited rest → ∃ used a, Spells file p text rest used ∧ P a ∧
    ∀ tokens, (goesOn → Unattached tokens) → R (used ++ tokens) a tokens

/-- A construct that is no payload of the word before it. -/
def Apart (R : Production α) (a : α) : Prop := ∀ input rest, R input a rest → Unattached input

theorem Reads.mono {R : Production α} {goesOn : Prop} {text : List Char} {P Q : α → Prop}
    (reads : Reads file R goesOn text P) (imp : ∀ a, P a → Q a) : Reads file R goesOn text Q := by
  intro p rest delimited
  obtain ⟨used, a, hSpells, hP, hR⟩ := reads p rest delimited
  exact ⟨used, a, hSpells, imp a hP, hR⟩

/-- Less may be asked of what follows. -/
theorem Reads.guard {R : Production α} {goesOn ends : Prop} {text : List Char} {P : α → Prop}
    (reads : Reads file R goesOn text P) (imp : goesOn → ends) : Reads file R ends text P := by
  intro p rest delimited
  obtain ⟨used, a, hSpells, hP, hR⟩ := reads p rest delimited
  exact ⟨used, a, hSpells, hP, fun tokens free => hR tokens fun goes => free (imp goes)⟩

theorem delimited_cons {c : Char} {more : List Char}
    (other : Lexeme.isWordPart c = false ∧ c ≠ '.') : Delimited (c :: more) := by
  rintro d ⟨⟩
  exact other

theorem delimited_closing (b : Bracket) (more : List Char) :
    Delimited ((Mark.closing b).char :: more) :=
  delimited_cons (by cases b <;> decide)

theorem delimited_comma (more : List Char) : Delimited (',' :: more) :=
  delimited_cons (by decide)

theorem unattached_of_kind {t : Token} {later : List Token} {m : Mark} (kind : t.kind = .mark m)
    (other : ∀ b, m ≠ .opening b) : Unattached (t :: later) := by
  refine ⟨t, later, rfl, ?_, ?_⟩
  · rw [kind]
    intro h
    exact other _ (Kind.mark.inj h)
  · rw [kind]
    intro h
    exact other _ (Kind.mark.inj h)

theorem unattached_of_word {t : Token} {later : List Token} {word : String}
    (kind : t.kind = .word word) : Unattached (t :: later) :=
  ⟨t, later, rfl, by simp [kind], by simp [kind]⟩

theorem unattached_of_end {t : Token} {later : List Token} (kind : t.kind = .endOfInput) :
    Unattached (t :: later) :=
  ⟨t, later, rfl, by simp [kind], by simp [kind]⟩

theorem Items.unattached {b : Bracket} {item : Production α} {input rest : List Token}
    {as : List α} (items : Items b item input as rest) (apart : ∀ a ∈ as, item.Apart a) :
    Unattached input := by
  cases items with
  | close closing => exact unattached_of_kind closing (by simp)
  | plain first _ | separated first _ _ => exact apart _ List.mem_cons_self _ _ first

theorem exists_of_forall₂ {P : γ → α → Prop} {xs : List γ} {as : List α}
    (related : List.Forall₂ P xs as) : ∀ a ∈ as, ∃ x ∈ xs, P x a := by
  induction related with
  | nil => simp
  | cons hP _ ih =>
      intro a mem
      rcases List.mem_cons.1 mem with rfl | mem
      · exact ⟨_, List.mem_cons_self, hP⟩
      · obtain ⟨x, hx, hP⟩ := ih a mem
        exact ⟨x, List.mem_cons_of_mem _ hx, hP⟩

theorem map_eq_of_forall₂ {β : Type} {f : α → β} {g : γ → β} {xs : List γ} {as : List α}
    (related : List.Forall₂ (fun x a => f a = g x) xs as) : as.map f = xs.map g := by
  induction related with
  | nil => rfl
  | cons hSame _ ih => rw [List.map_cons, List.map_cons, hSame, ih]

section

variable {item : Production α} {xs : List γ} {text : γ → List Char} {goesOn : γ → Prop}
  {P : γ → α → Prop}

/-- Items on lines of their own, up to the closing bracket. -/
theorem items_of_lines {b : Bracket} (depth : Nat)
    (each : ∀ x ∈ xs, Reads file item (goesOn x) (text x) (P x))
    (apart : (∀ x ∈ xs, ¬ goesOn x) ∨ ∀ x ∈ xs, ∀ a, P x a → item.Apart a)
    (p : Position) (rest : List Char) :
    ∃ used as, Spells file p (((xs.map text).flatMap fun part => newline (depth + 1) ++ part) ++
        newline depth ++ [(Mark.closing b).char]) rest used ∧
      List.Forall₂ P xs as ∧ ∀ tokens, Items b item (used ++ tokens) as tokens := by
  induction xs generalizing p with
  | nil =>
      refine ⟨_, [], Spells.append (Spells.append Spells.nil (Spells.newline _)) (Spells.mark _),
        .nil, ?_⟩
      intro tokens
      exact .close rfl
  | cons x xs ih =>
      let others := ((xs.map text).flatMap fun part => newline (depth + 1) ++ part) ++
        newline depth ++ [(Mark.closing b).char]
      have hDelimited : Delimited (others ++ rest) := by
        cases xs with
        | nil => exact delimited_cons (by decide)
        | cons y ys => exact delimited_cons (by decide)
      have hApart : (∀ y ∈ xs, ¬ goesOn y) ∨ ∀ y ∈ xs, ∀ a, P y a → item.Apart a :=
        apart.imp (fun h y mem => h y (List.mem_cons_of_mem _ mem))
          (fun h y mem => h y (List.mem_cons_of_mem _ mem))
      obtain ⟨used, a, hSpells, hP, hItem⟩ :=
        each x List.mem_cons_self (p.after (newline (depth + 1))) _ hDelimited
      obtain ⟨more, as, hMore, hAs, hItems⟩ :=
        ih (fun y mem => each y (List.mem_cons_of_mem _ mem)) hApart
          ((p.after (newline (depth + 1))).after (text x))
      refine ⟨used ++ more, a :: as, ?_, .cons hP hAs, ?_⟩
      · have hLine := Spells.append (Spells.newline _) (Spells.append hSpells hMore)
        simpa [others] using hLine
      · intro tokens
        rw [List.append_assoc]
        refine .plain (hItem _ fun goes => ?_) (hItems tokens)
        refine (hItems tokens).unattached fun a' mem => ?_
        obtain ⟨y, hy, hPy⟩ := exists_of_forall₂ hAs a' mem
        rcases apart with closed | apart
        · exact absurd goes (closed x List.mem_cons_self)
        · exact apart y (List.mem_cons_of_mem _ hy) a' hPy

/-- Items between brackets, each on a line of its own. -/
theorem Reads.block {b : Bracket} (depth : Nat)
    (each : ∀ x ∈ xs, Reads file item (goesOn x) (text x) (P x))
    (apart : (∀ x ∈ xs, ¬ goesOn x) ∨ ∀ x ∈ xs, ∀ a, P x a → item.Apart a) :
    Reads file (Block b item) False
      (Layout.block depth (Mark.opening b).char (Mark.closing b).char (xs.map text))
      (List.Forall₂ P xs) := by
  intro p rest _
  by_cases hNil : xs = []
  · subst hNil
    refine ⟨_, [], Spells.mark_cons _ (Spells.mark _), .nil, ?_⟩
    intro tokens _
    exact .intro rfl (.close rfl)
  · obtain ⟨used, as, hSpells, hAs, hItems⟩ :=
      items_of_lines (b := b) depth each apart (p.after [(Mark.opening b).char]) rest
    have hText : Layout.block depth (Mark.opening b).char (Mark.closing b).char (xs.map text) =
        (Mark.opening b).char :: (((xs.map text).flatMap fun part => newline (depth + 1) ++ part) ++
          newline depth ++ [(Mark.closing b).char]) := by
      simp [Layout.block, hNil]
    rw [hText]
    exact ⟨_, as, Spells.mark_cons _ hSpells, hAs, fun tokens _ => .intro rfl (hItems tokens)⟩

/-- Items on one line, up to the closing bracket. -/
theorem items_of_line {b : Bracket} (each : ∀ x ∈ xs, Reads file item (goesOn x) (text x) (P x))
    (p : Position) (rest : List Char) :
    ∃ used as, Spells file p (Text.joinWith [',', ' '] (xs.map text) ++ [(Mark.closing b).char])
        rest used ∧
      List.Forall₂ P xs as ∧ ∀ tokens, Items b item (used ++ tokens) as tokens := by
  induction xs generalizing p with
  | nil => exact ⟨_, [], Spells.mark _, .nil, fun tokens => .close rfl⟩
  | cons x xs ih =>
      have hFirst := each x List.mem_cons_self
      cases xs with
      | nil =>
          obtain ⟨used, a, hSpells, hP, hItem⟩ := hFirst p _ (delimited_closing b rest)
          refine ⟨_, [a], Spells.append hSpells (Spells.mark _), .cons hP .nil, fun tokens => ?_⟩
          rw [List.append_assoc]
          exact .plain (hItem _ fun _ => unattached_of_kind rfl (by simp)) (.close rfl)
      | cons y ys =>
          obtain ⟨more, as, hMore, hAs, hItems⟩ :=
            ih (fun z mem => each z (List.mem_cons_of_mem _ mem))
              ((p.after (text x)).after [',', ' '])
          obtain ⟨used, a, hSpells, hP, hItem⟩ := hFirst p _ (delimited_comma _)
          have hAll := Spells.append hSpells (Spells.append Spells.comma hMore)
          refine ⟨_, a :: as, by simpa [Text.joinWith] using hAll, .cons hP hAs, fun tokens => ?_⟩
          rw [List.append_assoc]
          exact .separated (hItem _ fun _ => unattached_of_kind rfl (by simp)) rfl (hItems tokens)

/-- Items between brackets on one line. -/
theorem Reads.line {b : Bracket} (each : ∀ x ∈ xs, Reads file item (goesOn x) (text x) (P x)) :
    Reads file (Block b item) False
      (Layout.inline (Mark.opening b).char (Mark.closing b).char (xs.map text))
      (List.Forall₂ P xs) := by
  intro p rest _
  obtain ⟨used, as, hSpells, hAs, hItems⟩ :=
    items_of_line each (b := b) (p.after [(Mark.opening b).char]) rest
  exact ⟨_, as, Spells.mark_cons _ hSpells, hAs, fun tokens _ => .intro rfl (hItems tokens)⟩

/-- The slots of a tuple, up to the closing bracket. -/
theorem slots_of_line (each : ∀ x ∈ xs, Reads file item (goesOn x) (text x) (P x))
    (nonempty : xs ≠ []) (p : Position) (rest : List Char) :
    ∃ used as, Spells file p (Text.joinWith [',', ' '] (xs.map text) ++ [')']) rest used ∧
      List.Forall₂ P xs as ∧ ∀ tokens, Slots item (used ++ tokens) as tokens := by
  induction xs generalizing p with
  | nil => exact absurd rfl nonempty
  | cons x xs ih =>
      have hFirst := each x List.mem_cons_self
      cases xs with
      | nil =>
          obtain ⟨used, a, hSpells, hP, hItem⟩ := hFirst p _ (delimited_closing .round rest)
          refine ⟨_, [a], Spells.append hSpells (Spells.mark (.closing .round)), .cons hP .nil,
            fun tokens => ?_⟩
          rw [List.append_assoc]
          exact .last (hItem _ fun _ => unattached_of_kind rfl (by simp)) rfl
      | cons y ys =>
          obtain ⟨more, as, hMore, hAs, hItems⟩ :=
            ih (fun z mem => each z (List.mem_cons_of_mem _ mem)) (by simp)
              ((p.after (text x)).after [',', ' '])
          obtain ⟨used, a, hSpells, hP, hItem⟩ := hFirst p _ (delimited_comma _)
          have hAll := Spells.append hSpells (Spells.append Spells.comma hMore)
          refine ⟨_, a :: as, by simpa [Text.joinWith] using hAll, .cons hP hAs, fun tokens => ?_⟩
          rw [List.append_assoc]
          exact .more (hItem _ fun _ => unattached_of_kind rfl (by simp)) rfl (hItems tokens)

/-- A tuple. -/
theorem Reads.tuple (each : ∀ x ∈ xs, Reads file item (goesOn x) (text x) (P x))
    (nonempty : xs ≠ []) :
    Reads file (Tuple item) False (Layout.inline '(' ')' (xs.map text)) (List.Forall₂ P xs) := by
  intro p rest _
  obtain ⟨used, as, hSpells, hAs, hSlots⟩ :=
    slots_of_line each nonempty (p.after ['(']) rest
  exact ⟨_, as, Spells.mark_cons (.opening .round) hSpells, hAs,
    fun tokens _ => .intro rfl (hSlots tokens)⟩

/-- Items of different keys between braces. -/
theorem Reads.keyed {key : α → String} {name : γ → String} (depth : Nat)
    (each : ∀ x ∈ xs, Reads file item (goesOn x) (text x) (P x))
    (apart : (∀ x ∈ xs, ¬ goesOn x) ∨ ∀ x ∈ xs, ∀ a, P x a → item.Apart a)
    (names : ∀ ⦃x a⦄, P x a → key a = name x) (nodup : (xs.map name).Nodup) :
    Reads file (KeyedBlock key item) False (Layout.block depth '{' '}' (xs.map text))
      (List.Forall₂ P xs) := by
  intro p rest delimited
  obtain ⟨used, as, hSpells, hAs, hBlock⟩ :=
    Reads.block (b := .brace) depth each apart p rest delimited
  refine ⟨used, as, hSpells, hAs, fun tokens goesOn => ⟨hBlock tokens goesOn, ?_⟩⟩
  rw [map_eq_of_forall₂ (hAs.imp names)]
  exact nodup

end

end Production

end TypedConfig
