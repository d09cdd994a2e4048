import TypedConfig.Proofs.Grammar.Acceptance
/-!
The lists of the grammar are accepted by the loops that read them, provided that the parser of an
item accepts the production of an item. An item begins with a token that neither closes a block nor
separates items, which decides every choice of the loops, and takes that token, which ends them.
-/
namespace TypedConfig

/-- An item of a block can begin with such a token. -/
def Token.Kind.BeginsItem (k : Token.Kind) : Prop :=
  k ≠ .endOfInput ∧ k ≠ .mark .comma ∧ ∀ b, k ≠ .mark (.closing b)

namespace Production

variable {α : Type}

/-- Every construct begins with a token that can begin an item. -/
def IsItem (R : Production α) : Prop :=
  ∀ input a rest, R input a rest →
    ∃ t later, input = t :: later ∧ t.kind.BeginsItem ∧ Token.Leaves later rest

theorem IsItem.inside {R : Production α} (isItem : R.IsItem) : R.Inside := by
  intro input a rest h
  obtain ⟨t, later, rfl, begins, leaves⟩ := isItem _ _ _ h
  exact leaves.cons begins.1

theorem IsItem.length_lt {R : Production α} (isItem : R.IsItem) {input rest : List Token} {a : α}
    (h : R input a rest) : rest.length < input.length := by
  obtain ⟨t, later, rfl, -, leaves⟩ := isItem _ _ _ h
  exact Nat.lt_succ_of_le leaves.length_le

theorem items_inside {b : Bracket} {R : Production α} (inside : R.Inside) :
    (Items b R).Inside := by
  intro input as rest h
  induction h with
  | close closing => exact (Token.Leaves.refl _).cons (by simp [closing])
  | plain first _ ih => exact (inside _ _ _ first).trans ih
  | separated first comma _ ih =>
      exact (inside _ _ _ first).trans (ih.cons (by simp [comma]))

theorem slots_inside {R : Production α} (inside : R.Inside) : (Slots R).Inside := by
  intro input as rest h
  induction h with
  | last first closing =>
      exact (inside _ _ _ first).trans ((Token.Leaves.refl _).cons (by simp [closing]))
  | more first comma _ ih => exact (inside _ _ _ first).trans (ih.cons (by simp [comma]))

/-- A block begins with its opening bracket. -/
theorem Block.begins {b : Bracket} {R : Production α} (inside : R.Inside) {input rest : List Token}
    {as : List α} (block : Block b R input as rest) :
    ∃ t later, input = t :: later ∧ t.kind = .mark (.opening b) ∧ Token.Leaves later rest := by
  cases block with
  | intro opening items => exact ⟨_, _, rfl, opening, items_inside inside _ _ _ items⟩

theorem payload_inside {β : Type} {R : Production α} {S : Production (List β)} (slots : R.Inside)
    (fields : S.Inside) : (Production.Payload R S).Inside := by
  intro input a rest h
  cases h with
  | unit => exact .refl _
  | tuple h =>
      cases h with
      | intro opening inner => exact (slots_inside slots _ _ _ inner).cons (by simp [opening])
  | fields h => exact fields _ _ _ h

theorem many_inside {R : Production α} (inside : R.Inside) : (Many R).Inside := by
  intro input as rest h
  induction h with
  | done => exact .refl _
  | more first _ ih => exact (inside _ _ _ first).trans ih

/-- The inside of a block does not begin with a comma. -/
theorem Items.head_ne_comma {b : Bracket} {R : Production α} (isItem : R.IsItem)
    {input rest : List Token} {as : List α} (items : Items b R input as rest) :
    ∃ t later, input = t :: later ∧ t.kind ≠ .mark .comma := by
  cases items with
  | close closing => exact ⟨_, _, rfl, by simp [closing]⟩
  | plain first _ | separated first _ _ =>
      obtain ⟨t, later, heq, begins, -⟩ := isItem _ _ _ first
      exact ⟨t, later, heq, begins.2.1⟩

/-- A construct and the comma that may follow it. -/
def Separated (R : Production α) : Production α := fun input a rest =>
  (∃ t, R input a (t :: rest) ∧ t.kind = .mark .comma) ∨
    (R input a rest ∧ ∃ t later, rest = t :: later ∧ t.kind ≠ .mark .comma)

theorem separated_inside {R : Production α} (inside : R.Inside) : (Separated R).Inside := by
  rintro input a rest (⟨t, hR, comma⟩ | ⟨hR, -⟩)
  · exact (inside _ _ _ hR).trans ((Token.Leaves.refl rest).cons (by simp [comma]))
  · exact inside _ _ _ hR

theorem separated_and_iff {R : Production α} {condition : α → Prop} {input rest : List Token}
    {a : α} : Separated (fun input a rest => R input a rest ∧ condition a) input a rest ↔
      Separated R input a rest ∧ condition a := by
  simp only [Separated]
  grind

theorem items_nil_iff {b : Bracket} {R : Production α} {input rest : List Token} :
    Items b R input [] rest ↔ ∃ t, input = t :: rest ∧ t.kind = .mark (.closing b) := by
  constructor
  · rintro ⟨closing⟩
    exact ⟨_, rfl, closing⟩
  · rintro ⟨t, rfl, closing⟩
    exact .close closing

/-- A comma behind an item belongs to that item, as no other item begins with it. -/
theorem items_cons_iff {b : Bracket} {R : Production α} (isItem : R.IsItem)
    {input rest : List Token} {a : α} {as : List α} :
    Items b R input (a :: as) rest ↔
      ∃ middle, Separated R input a middle ∧ Items b R middle as rest := by
  constructor
  · intro items
    cases items with
    | plain first others => exact ⟨_, .inr ⟨first, others.head_ne_comma isItem⟩, others⟩
    | separated first comma others => exact ⟨_, .inl ⟨_, first, comma⟩, others⟩
  · rintro ⟨middle, ⟨t, first, comma⟩ | ⟨first, -⟩, others⟩
    · exact .separated first comma others
    · exact .plain first others

/-- An item takes its first token, and no more is left with a comma behind it. -/
theorem IsItem.separated_length_lt {R : Production α} (isItem : R.IsItem)
    {input rest : List Token} {a : α} (h : Separated R input a rest) :
    rest.length < input.length := by
  rcases h with ⟨t, hR, -⟩ | ⟨hR, -⟩
  · have := isItem.length_lt hR
    simp only [List.length_cons] at this
    omega
  · exact isItem.length_lt hR

/-- The first token of an item does not end a block. -/
theorem Separated.head_ne_closing {R : Production α} (isItem : R.IsItem)
    {input rest : List Token} {a : α} (h : Separated R input a rest) :
    ∃ t later, input = t :: later ∧ t.kind ≠ .endOfInput ∧
      ∀ b, t.kind ≠ .mark (.closing b) := by
  rcases h with ⟨_, hR, -⟩ | ⟨hR, -⟩ <;>
  · obtain ⟨t, later, heq, begins, -⟩ := isItem _ _ _ hR
    exact ⟨t, later, heq, begins.1, begins.2.2⟩

theorem many_nil_iff {R : Production α} {input rest : List Token} :
    Many R input [] rest ↔ rest = input := by
  constructor
  · rintro ⟨⟩
    rfl
  · rintro rfl
    exact .done

theorem many_cons_iff {R : Production α} {input rest : List Token} {a : α} {as : List α} :
    Many R input (a :: as) rest ↔ ∃ middle, R input a middle ∧ Many R middle as rest := by
  constructor
  · intro many
    cases many with
    | more first others => exact ⟨_, first, others⟩
  · rintro ⟨middle, first, others⟩
    exact .more first others

theorem not_slots_nil {R : Production α} {input rest : List Token} : ¬ Slots R input [] rest :=
  nofun

theorem slots_cons_iff {R : Production α} {input rest : List Token} {a : α} {as : List α} :
    Slots R input (a :: as) rest ↔
      (as = [] ∧ ∃ t, R input a (t :: rest) ∧ t.kind = .mark (.closing .round)) ∨
        ∃ t middle, R input a (t :: middle) ∧ t.kind = .mark .comma ∧ Slots R middle as rest := by
  constructor
  · intro slots
    cases slots with
    | last first closing => exact .inl ⟨rfl, _, first, closing⟩
    | more first comma others => exact .inr ⟨_, _, first, comma, others⟩
  · rintro (⟨rfl, t, first, closing⟩ | ⟨t, middle, first, comma, others⟩)
    · exact .last first closing
    · exact .more first comma others

/-- Each element is fresh behind those before it, the nearest of which comes first. -/
def FreshAfter (fresh : List α → α → Prop) : List α → List α → Prop
  | _, [] => True
  | before, a :: as => fresh before a ∧ FreshAfter fresh (a :: before) as

/-- Elements with keys unlike those before them are elements with different keys. -/
theorem freshAfter_iff_nodup {key : α → String} {before as : List α} :
    FreshAfter (fun before a => ∀ b ∈ before, key b ≠ key a) before as ↔
      (as.map key).Nodup ∧ ∀ a ∈ as, ∀ b ∈ before, key b ≠ key a := by
  induction as generalizing before with
  | nil => simp [FreshAfter]
  | cons a as ih =>
      simp only [FreshAfter, ih, List.map_cons, List.nodup_cons, List.mem_map, List.mem_cons]
      grind

theorem freshAfter_true {before as : List α} : FreshAfter (fun _ _ => True) before as := by
  induction as generalizing before with
  | nil => trivial
  | cons a as ih => exact ⟨trivial, ih⟩

end Production

namespace Parser

open Production

variable {α : Type} {file : String}

/-- The end of a block is seen without taking it. -/
theorem Accepts.atClosing {b : Bracket} {opened : Span} :
    Accepts file (Parser.atClosing b opened) fun input closes rest => rest = input ∧
      ∃ t later, input = t :: later ∧
        ((closes = true ∧ t.kind = .mark (.closing b)) ∨
          (closes = false ∧ t.kind ≠ .endOfInput ∧ ∀ b', t.kind ≠ .mark (.closing b'))) := by
  refine (onKind (S := fun k input closes rest => rest = input ∧
    ((closes = true ∧ k = .mark (.closing b)) ∨
      (closes = false ∧ k ≠ .endOfInput ∧ ∀ b', k ≠ .mark (.closing b')))) fun k => ?_).congr
        fun input closes rest => ?_
  · split
    · next b' =>
      refine (ite (Accepts.pure true) (bind here fun _ => fail)).congr ?_
      intro input closes rest
      by_cases hb : b' = b <;> simp [hb, and_comm]
    · exact (bind here fun _ => fail).congr (by simp)
    · next hClosing hEnd =>
      refine (Accepts.pure false).congr ?_
      intro input closes rest
      have hOther : k ≠ .mark (.closing b) := hClosing b
      simp only [hOther, and_false, false_or]
      exact ⟨fun h => ⟨h.2, h.1, hEnd, hClosing⟩, fun h => ⟨h.2.1, h.1⟩⟩
  · constructor
    · rintro ⟨t, later, rfl, rfl, h⟩
      exact ⟨rfl, t, later, rfl, h⟩
    · rintro ⟨rfl, t, later, rfl, h⟩
      exact ⟨t, later, rfl, rfl, h⟩

theorem atClosing_eq_ok {b : Bracket} {opened : Span} {c d : Cursor} {closes : Bool}
    (closed : Token.Closed c.tokens) :
    atClosing b opened c = .ok (closes, d) ↔ d = c ∧
      ((closes = true ∧ c.kind = .mark (.closing b)) ∨
        (closes = false ∧ c.kind ≠ .endOfInput ∧ ∀ b', c.kind ≠ .mark (.closing b'))) := by
  rw [Accepts.atClosing.run_iff c rfl closed, cursor_eq_iff]
  simp only [Cursor.tokens, List.cons.injEq, Cursor.kind]
  constructor
  · rintro ⟨hd, hTokens, _, _, ⟨rfl, rfl⟩, h⟩
    exact ⟨⟨hd, hTokens⟩, h⟩
  · rintro ⟨⟨hd, hTokens⟩, h⟩
    exact ⟨hd, hTokens, _, _, ⟨rfl, rfl⟩, h⟩

section

variable {b : Bracket} {opened : Span} {item : List α → Parser α} {before as : List α} {a : α}
  {c d : Cursor}

/-- The loop over a block ends at the bracket that closes it, or takes an item and goes on. -/
theorem itemsFrom_eq_ok {out : List α} :
    itemsFrom b opened item before c = .ok (out, d) ↔
      (∃ e, atClosing b opened c = .ok (true, e) ∧ out = [] ∧ d = e.advance) ∨
      ∃ e a next as, atClosing b opened c = .ok (false, e) ∧
        (item before <* optionalMark .comma) c = .ok (a, next) ∧
        next.later.length < c.later.length ∧
        itemsFrom b opened item (a :: before) next = .ok (as, d) ∧ out = a :: as := by
  rw [itemsFrom]
  cases hClosing : atClosing b opened c with
  | error e => simp
  | ok closing =>
      obtain ⟨closes, e⟩ := closing
      cases closes with
      | true => simp [eq_comm]
      | false =>
          cases hItem : (item before <* optionalMark .comma) c with
          | error e => simp
          | ok read =>
              obtain ⟨a, next⟩ := read
              by_cases hLess : next.later.length < c.later.length
              · cases hRest : itemsFrom b opened item (a :: before) next with
                | error e => simp [hLess, hRest]
                | ok more => grind
              · simp [hLess]

theorem itemsFrom_nil_eq_ok :
    itemsFrom b opened item before c = .ok ([], d) ↔
      ∃ e, atClosing b opened c = .ok (true, e) ∧ d = e.advance := by
  rw [itemsFrom_eq_ok]
  simp

theorem itemsFrom_cons_eq_ok :
    itemsFrom b opened item before c = .ok (a :: as, d) ↔
      ∃ e next, atClosing b opened c = .ok (false, e) ∧
        (item before <* optionalMark .comma) c = .ok (a, next) ∧
        next.later.length < c.later.length ∧
        itemsFrom b opened item (a :: before) next = .ok (as, d) := by
  rw [itemsFrom_eq_ok]
  constructor
  · rintro (⟨_, -, ⟨⟩, -⟩ | ⟨e, _, next, _, hClosing, hItem, hLess, hRest, ⟨⟩⟩)
    exact ⟨e, next, hClosing, hItem, hLess, hRest⟩
  · rintro ⟨e, next, hClosing, hItem, hLess, hRest⟩
    exact .inr ⟨e, a, next, as, hClosing, hItem, hLess, hRest, rfl⟩

end

section

variable {opened : Span} {item : Parser α} {as : List α} {a : α} {c d : Cursor}

/-- A tuple has a slot. -/
theorem slotsFrom_ne_nil : slotsFrom opened item c ≠ .ok ([], d) := by
  rw [slotsFrom]
  split
  · simp
  · split
    · split
      · split <;> simp
      · simp
    · split <;> simp

/-- One round of the loop over a tuple. -/
theorem slotsFrom_eq_ok :
    slotsFrom opened item c = .ok (a :: as, d) ↔
      (as = [] ∧ ∃ next e, item c = .ok (a, next) ∧ next.kind ≠ .mark .comma ∧
        atClosing .round opened next = .ok (true, e) ∧ d = e.advance) ∨
      ∃ next, item c = .ok (a, next) ∧ next.kind = .mark .comma ∧
        next.advance.later.length < c.later.length ∧
        slotsFrom opened item next.advance = .ok (as, d) := by
  rw [slotsFrom]
  cases hItem : item c with
  | error e => simp
  | ok read =>
      obtain ⟨a', next⟩ := read
      simp only [Except.ok.injEq, Prod.mk.injEq]
      by_cases hComma : next.kind = .mark .comma
      · by_cases hLess : next.advance.later.length < c.later.length
        · cases hRest : slotsFrom opened item next.advance <;> grind
        · grind
      · cases hClosing : atClosing .round opened next with
        | error e => grind
        | ok closing =>
            obtain ⟨closes, e⟩ := closing
            cases closes with
            | true => grind
            | false => simp [hComma, hClosing]

/-- The loop over directives or declarations ends where another token stands. -/
theorem startingWith_nil_eq_ok {m : Mark} :
    startingWith m item c = .ok ([], d) ↔ d = c ∧ c.kind ≠ .mark m := by
  rw [startingWith]
  by_cases hKind : c.kind = .mark m
  · cases hItem : item c with
    | error e => simp [hKind]
    | ok read =>
        obtain ⟨a, next⟩ := read
        by_cases hLess : next.later.length < c.later.length
        · cases hRest : startingWith m item next <;> simp [hKind, hLess, hRest]
        · simp [hKind, hLess]
  · simp [hKind, eq_comm]

/-- One round of the loop over directives or declarations. -/
theorem startingWith_cons_eq_ok {m : Mark} :
    startingWith m item c = .ok (a :: as, d) ↔ c.kind = .mark m ∧ ∃ next, item c = .ok (a, next) ∧
      ((next.later.length < c.later.length ∧ startingWith m item next = .ok (as, d)) ∨
        (¬ next.later.length < c.later.length ∧ as = [] ∧ d = next)) := by
  rw [startingWith]
  by_cases hKind : c.kind = .mark m
  · cases hItem : item c with
    | error e => simp [hKind]
    | ok read =>
        obtain ⟨a', next⟩ := read
        by_cases hLess : next.later.length < c.later.length
        · cases hRest : startingWith m item next <;> grind
        · grind
  · simp [hKind]

end

namespace Accepts

theorem separated {p : Parser α} {R : Production α} (accepts : Accepts file p R) :
    Accepts file (p <* Parser.optionalMark .comma) (Separated R) := by
  rw [seqLeft_eq_bind]
  refine (bind accepts fun a => bind (optionalMark .comma) fun _ => pure a).congr ?_
  intro input a rest
  constructor
  · rintro ⟨_, middle, hR, found, _, hComma | hNone, rfl, rfl⟩
    · obtain ⟨-, t, rfl, hKind⟩ := hComma
      exact .inl ⟨t, hR, hKind⟩
    · obtain ⟨-, rfl, hNone⟩ := hNone
      exact .inr ⟨hR, hNone⟩
  · rintro (⟨t, hR, hKind⟩ | ⟨hR, hNone⟩)
    · exact ⟨a, _, hR, true, rest, .inl ⟨rfl, t, rfl, hKind⟩, rfl, rfl⟩
    · exact ⟨a, _, hR, false, rest, .inr ⟨rfl, rfl, hNone⟩, rfl, rfl⟩

/-- By induction on the items: every round takes one of them, and none is lost because an item never
begins with a comma or a closing bracket. -/
theorem itemsFrom {b : Bracket} {opened : Span} {item : List α → Parser α} {R : Production α}
    {fresh : List α → α → Prop} (isItem : R.IsItem)
    (each : ∀ before, Accepts file (item before) fun input a rest => R input a rest ∧ fresh before a)
    (before : List α) :
    Accepts file (Parser.itemsFrom b opened item before) fun input as rest =>
      Items b R input as rest ∧ FreshAfter fresh before as where
  inside := fun input as rest h => items_inside isItem.inside _ _ _ h.1
  run_iff := by
    intro c hFile closed as d
    induction as generalizing c before with
    | nil =>
        rw [itemsFrom_nil_eq_ok, items_nil_iff]
        constructor
        · rintro ⟨e, hClosing, rfl⟩
          obtain ⟨rfl, ⟨-, hKind⟩ | ⟨hFalse, -⟩⟩ := (atClosing_eq_ok closed).1 hClosing
          · have hTokens := tokens_eq_cons closed (by simp [hKind])
            exact ⟨(file_advance e).trans hFile, ⟨e.current, hTokens, hKind⟩, trivial⟩
          · cases hFalse
        · rintro ⟨hd, ⟨t, hTokens, hKind⟩, -⟩
          have hAt := (kind_eq_of_tokens hTokens).trans hKind
          refine ⟨c, (atClosing_eq_ok closed).2 ⟨rfl, .inl ⟨rfl, hAt⟩⟩, cursor_ext ?_ ?_⟩
          · rw [file_advance, hd, hFile]
          · rw [tokens_advance closed, hTokens]
            simp [hKind]
    | cons a as ih =>
        have hItem : ∀ next, (item before <* Parser.optionalMark .comma) c = .ok (a, next) ↔
            next.file = file ∧ Separated R c.tokens a next.tokens ∧ fresh before a := fun next => by
          rw [(separated (each before)).run_iff c hFile closed a next, separated_and_iff]
        rw [items_cons_iff isItem, itemsFrom_cons_eq_ok]
        constructor
        · rintro ⟨e, next, -, hRun, -, hRest⟩
          obtain ⟨hNext, hFirst, hFresh⟩ := (hItem next).1 hRun
          have hClosed := closed.of_leaves (separated_inside isItem.inside _ _ _ hFirst)
          obtain ⟨hd, hItems, hOthers⟩ := (ih _ next hNext hClosed).1 hRest
          exact ⟨hd, ⟨next.tokens, hFirst, hItems⟩, hFresh, hOthers⟩
        · rintro ⟨hd, ⟨middle, hFirst, hItems⟩, hFresh, hOthers⟩
          have hClosed := closed.of_leaves (separated_inside isItem.inside _ _ _ hFirst)
          obtain ⟨next, hNext, rfl⟩ := exists_cursor file hClosed
          obtain ⟨u, rest, hTokens, hEnd, hOpen⟩ := hFirst.head_ne_closing isItem
          have hAt := kind_eq_of_tokens hTokens
          have hLess := isItem.separated_length_lt hFirst
          simp only [Cursor.tokens, List.length_cons, Nat.add_lt_add_iff_right] at hLess
          have hClosing : Parser.atClosing b opened c = .ok (false, c) :=
            (atClosing_eq_ok closed).2 ⟨rfl, .inr ⟨rfl, hAt ▸ hEnd, hAt ▸ hOpen⟩⟩
          exact ⟨c, next, hClosing, (hItem _).2 ⟨hNext, hFirst, hFresh⟩, hLess,
            (ih _ next hNext hClosed).2 ⟨hd, hItems, hOthers⟩⟩

theorem block {b : Bracket} {item : List α → Parser α} {R : Production α}
    {fresh : List α → α → Prop} (isItem : R.IsItem)
    (each : ∀ before, Accepts file (item before) fun input a rest => R input a rest ∧ fresh before a) :
    Accepts file (Parser.block b item) fun input as rest =>
      Block b R input as rest ∧ FreshAfter fresh [] as := by
  refine (bind here fun opened => bind (mark _) fun _ => itemsFrom isItem each []).congr ?_
  intro input as rest
  constructor
  · rintro ⟨opened, _, ⟨rfl, -⟩, _, middle, ⟨t, rfl, hKind⟩, hItems, hFresh⟩
    exact ⟨.intro hKind hItems, hFresh⟩
  · rintro ⟨@⟨t, input, _, _, hKind, hItems⟩, hFresh⟩
    exact ⟨t.span file, _, ⟨rfl, by simp⟩, (), input, ⟨t, rfl, hKind⟩, hItems, hFresh⟩

/-- A block whose items are told apart by a key. -/
theorem keyedBlock {item : List α → Parser α} {R : Production α} {key : α → String}
    (isItem : R.IsItem)
    (each : ∀ before, Accepts file (item before) fun input a rest =>
      R input a rest ∧ ∀ b ∈ before, key b ≠ key a) :
    Accepts file (Parser.block .brace item) (KeyedBlock key R) :=
  (block isItem each).congr fun input as rest => by simp [KeyedBlock, freshAfter_iff_nodup]

/-- A block whose items may be alike. -/
theorem plainBlock {b : Bracket} {item : Parser α} {R : Production α} (isItem : R.IsItem)
    (each : Accepts file item R) : Accepts file (Parser.block b fun _ => item) (Block b R) := by
  have hBlock : Accepts file (Parser.block b fun _ => item) fun input as rest =>
      Block b R input as rest ∧ FreshAfter (fun _ _ => True) [] as :=
    block isItem fun _ => each.congr (by simp)
  exact hBlock.congr (by simp [freshAfter_true])

/-- By induction on the slots: a comma behind a slot promises another one. -/
theorem slotsFrom {opened : Span} {slot : Parser α} {R : Production α}
    (accepts : Accepts file slot R) : Accepts file (Parser.slotsFrom opened slot) (Slots R) where
  inside := slots_inside accepts.inside
  run_iff := by
    intro c hFile closed as d
    induction as generalizing c with
    | nil => simp [slotsFrom_ne_nil, not_slots_nil]
    | cons a as ih =>
        rw [slotsFrom_eq_ok, slots_cons_iff]
        constructor
        · rintro (⟨rfl, next, e, hSlot, -, hClosing, rfl⟩ | ⟨next, hSlot, hComma, -, hRest⟩)
          · obtain ⟨hNext, hR⟩ := (accepts.run_iff c hFile closed a next).1 hSlot
            have hClosed := closed.of_leaves (accepts.inside _ _ _ hR)
            obtain ⟨rfl, ⟨-, hKind⟩ | ⟨hFalse, -⟩⟩ := (atClosing_eq_ok hClosed).1 hClosing
            · rw [tokens_eq_cons hClosed (by simp [hKind])] at hR
              exact ⟨(file_advance e).trans hNext, .inl ⟨rfl, e.current, hR, hKind⟩⟩
            · cases hFalse
          · obtain ⟨hNext, hR⟩ := (accepts.run_iff c hFile closed a next).1 hSlot
            have hClosed := closed.of_leaves (accepts.inside _ _ _ hR)
            have hInside : next.kind ≠ .endOfInput := by simp [hComma]
            obtain ⟨hd, hOthers⟩ := (ih _ ((file_advance next).trans hNext)
              (closed_advance hClosed hInside)).1 hRest
            rw [tokens_eq_cons hClosed hInside] at hR
            exact ⟨hd, .inr ⟨next.current, next.advance.tokens, hR, hComma, hOthers⟩⟩
        · rintro ⟨hd, ⟨rfl, t, hR, hKind⟩ | ⟨t, middle, hR, hKind, hOthers⟩⟩
          · have hClosed := closed.of_leaves (accepts.inside _ _ _ hR)
            obtain ⟨next, hNext, hTokens⟩ := exists_cursor file hClosed
            have hAt := (kind_eq_of_tokens hTokens).trans hKind
            rw [← hTokens] at hR hClosed
            have hSlot := (accepts.run_iff c hFile closed a next).2 ⟨hNext, hR⟩
            refine .inl ⟨rfl, next, next, hSlot, by simp [hAt],
              (atClosing_eq_ok hClosed).2 ⟨rfl, .inl ⟨rfl, hAt⟩⟩, cursor_ext ?_ ?_⟩
            · rw [hd, file_advance, hNext]
            · rw [tokens_eq_cons hClosed (by simp [hAt])] at hTokens
              exact (List.cons.inj hTokens).2.symm
          · have hClosed := closed.of_leaves (accepts.inside _ _ _ hR)
            obtain ⟨next, hNext, hTokens⟩ := exists_cursor file hClosed
            have hAt := (kind_eq_of_tokens hTokens).trans hKind
            have hLeaves := (accepts.inside _ _ _ hR).length_le
            rw [← hTokens] at hR hClosed
            have hSlot := (accepts.run_iff c hFile closed a next).2 ⟨hNext, hR⟩
            have hInside : next.kind ≠ .endOfInput := by simp [hAt]
            rw [tokens_eq_cons hClosed hInside] at hTokens
            obtain ⟨-, rfl⟩ := List.cons.inj hTokens
            refine .inr ⟨next, hSlot, hAt, ?_, (ih _ ((file_advance next).trans hNext)
              (closed_advance hClosed hInside)).2 ⟨hd, hOthers⟩⟩
            simp only [Cursor.tokens, List.length_cons] at hLeaves
            omega

theorem tuple {slot : Parser α} {R : Production α} (accepts : Accepts file slot R) :
    Accepts file (Parser.tuple slot) (Tuple R) := by
  refine (bind here fun opened => bind (mark _) fun _ => slotsFrom accepts).congr ?_
  intro input as rest
  constructor
  · rintro ⟨opened, _, ⟨rfl, -⟩, _, middle, ⟨t, rfl, hKind⟩, hSlots⟩
    exact .intro hKind hSlots
  · rintro @⟨t, input, _, _, hKind, hSlots⟩
    exact ⟨t.span file, _, ⟨rfl, by simp⟩, (), input, ⟨t, rfl, hKind⟩, hSlots⟩

/-- What an alternative carries is told by the next token. -/
theorem payload {β : Type} {slot : Parser α} {fields : Parser (List β)} {R : Production α}
    {S : Production (List β)} (slots : Accepts file slot R) (block : Accepts file fields S)
    (braced : ∀ input bs rest, S input bs rest →
      ∃ t later, input = t :: later ∧ t.kind = .mark (.opening .brace))
    {f : Token.Kind → Parser (TypedConfig.Payload α β)}
    (round : f (.mark (.opening .round)) = (do return .tuple (← Parser.tuple slot)))
    (brace : f (.mark (.opening .brace)) = (do return .fields (← fields)))
    (other : ∀ k, k ≠ .mark (.opening .round) → k ≠ .mark (.opening .brace) → f k = return .unit) :
    Accepts file (Parser.kind >>= f) (Production.Payload R S) := by
  have hEach : ∀ k, Accepts file (f k) fun input a rest =>
      (k = .mark (.opening .round) ∧ ∃ as, a = .tuple as ∧ Tuple R input as rest) ∨
      (k = .mark (.opening .brace) ∧ ∃ bs, a = .fields bs ∧ S input bs rest) ∨
      (k ≠ .mark (.opening .round) ∧ k ≠ .mark (.opening .brace) ∧ a = .unit ∧ rest = input) := by
    intro k
    by_cases hRound : k = .mark (.opening .round)
    · rw [hRound, round]
      exact (map _ (tuple slots)).congr (by simp)
    · by_cases hBrace : k = .mark (.opening .brace)
      · rw [hBrace, brace]
        exact (map _ block).congr (by simp)
      · rw [other k hRound hBrace]
        exact (pure _).congr (by simp [hRound, hBrace])
  refine (onKind hEach).congr ?_
  intro input a rest
  constructor
  · rintro ⟨t, later, rfl, ⟨-, as, rfl, h⟩ | ⟨-, bs, rfl, h⟩ | ⟨hRound, hBrace, rfl, rfl⟩⟩
    · exact .tuple h
    · exact .fields h
    · exact .unit hRound hBrace
  · intro h
    cases h with
    | unit hRound hBrace => exact ⟨_, _, rfl, .inr (.inr ⟨hRound, hBrace, rfl, rfl⟩)⟩
    | tuple slots =>
        cases slots with
        | intro opening inner => exact ⟨_, _, rfl, .inl ⟨opening, _, rfl, .intro opening inner⟩⟩
    | fields block =>
        obtain ⟨t, later, rfl, hKind⟩ := braced _ _ _ block
        exact ⟨t, later, rfl, .inr (.inl ⟨hKind, _, rfl, block⟩)⟩

/-- The constructs that begin with a mark, one behind the other, as long as that mark stands. -/
theorem startingWith {m : Mark} {item : Parser α} {R : Production α}
    (accepts : Accepts file item R)
    (begins : ∀ input a rest, R input a rest →
      ∃ t later, input = t :: later ∧ t.kind = .mark m ∧ Token.Leaves later rest) :
    Accepts file (Parser.startingWith m item) fun input as rest =>
      Many R input as rest ∧ ∃ t later, rest = t :: later ∧ t.kind ≠ .mark m where
  inside input as rest h := many_inside accepts.inside _ _ _ h.1
  run_iff := by
    intro c hFile closed as d
    have hLess : ∀ {c next : Cursor} {a : α}, R c.tokens a next.tokens →
        next.later.length < c.later.length := by
      intro c next a hR
      obtain ⟨t, later, hTokens, -, leaves⟩ := begins _ _ _ hR
      obtain ⟨-, rfl⟩ := List.cons.inj hTokens
      have hLength := leaves.length_le
      simp only [Cursor.tokens, List.length_cons] at hLength
      omega
    induction as generalizing c with
    | nil =>
        rw [startingWith_nil_eq_ok, many_nil_iff, cursor_eq_iff, hFile]
        constructor
        · rintro ⟨⟨rfl, hTokens⟩, hKind⟩
          exact ⟨rfl, hTokens, c.current, c.later, hTokens, hKind⟩
        · rintro ⟨rfl, hTokens, t, later, heq, hKind⟩
          exact ⟨⟨rfl, hTokens⟩, (kind_eq_of_tokens (hTokens.symm.trans heq)).symm ▸ hKind⟩
    | cons a as ih =>
        rw [startingWith_cons_eq_ok, many_cons_iff]
        constructor
        · rintro ⟨hKind, next, hItem, ⟨-, hRest⟩ | ⟨hMore, -⟩⟩
          · obtain ⟨hNext, hR⟩ := (accepts.run_iff c hFile closed a next).1 hItem
            have hClosed := closed.of_leaves (accepts.inside _ _ _ hR)
            obtain ⟨hd, hMany, hEnds⟩ := (ih next hNext hClosed).1 hRest
            exact ⟨hd, ⟨next.tokens, hR, hMany⟩, hEnds⟩
          · obtain ⟨-, hR⟩ := (accepts.run_iff c hFile closed a next).1 hItem
            exact absurd (hLess hR) hMore
        · rintro ⟨hd, ⟨middle, hR, hMany⟩, hEnds⟩
          have hClosed := closed.of_leaves (accepts.inside _ _ _ hR)
          obtain ⟨next, hNext, rfl⟩ := exists_cursor file hClosed
          obtain ⟨t, later, hTokens, hKind, -⟩ := begins _ _ _ hR
          exact ⟨(kind_eq_of_tokens hTokens).trans hKind, next,
            (accepts.run_iff c hFile closed a next).2 ⟨hNext, hR⟩,
            .inl ⟨hLess hR, (ih next hNext hClosed).2 ⟨hd, hMany, hEnds⟩⟩⟩

end Accepts

end Parser

end TypedConfig
