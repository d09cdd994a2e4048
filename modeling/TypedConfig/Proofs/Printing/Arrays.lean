import Mathlib
import TypedConfig.Proofs.Grammar.Nesting
import TypedConfig.Proofs.Lexing.Pieces
import TypedConfig.Proofs.Printing.Homogeneity
/-!
Arrays without commas. Where the items of an array stand on lines of their own, no item goes on with
the next one, since the items are of one class. So reading the printed array gives as many items as
were printed, and each item is the one that is read from its line alone.
-/
namespace TypedConfig

open Production Token Layout

/-! ### Reading printed values -/

/-- In front of another text, a text at a place is read as a value: it is passed up to its end, and
the tokens left are those of the other text. -/
def Node.ReadsIn (file : String) (p : Position) (text rest : List Char) (node : Node) : Prop :=
  ∀ t later, scanFrom file (p.after text) rest = .ok (t :: later) →
    ∃ u more, scanFrom file p (text ++ rest) = .ok (u :: more) ∧
      Node.parser ⟨file, u, more⟩ = .ok (node, ⟨file, t, later⟩)

/-- Values on lines of their own are read one by one: each line, at its place but without any text
behind it, is read as a value that is written for its own one. -/
inductive Value.LinesRead (file : String) (depth : Nat) :
    Position → List Value → List Node → Prop where
  | nil {p : Position} : LinesRead file depth p [] []
  | cons {p : Position} {value : Value} {node : Node} {values : List Value} {nodes : List Node}
      (alone : Node.ReadsIn file (p.after (newline depth)) (value.source depth) [] node)
      (written : value.WrittenAs node)
      (others : LinesRead file depth ((p.after (newline depth)).after (value.source depth))
        values nodes) :
      LinesRead file depth p (value :: values) (node :: nodes)

variable {file : String}

theorem Value.LinesRead.forall₂ {depth : Nat} {p : Position} {values : List Value}
    {nodes : List Node} (lines : LinesRead file depth p values nodes) :
    List.Forall₂ WrittenAs values nodes := by
  induction lines with
  | nil => exact .nil
  | cons _ written _ ih => exact .cons written ih

/-- Printed text is read alone in the same way as in front of a new line. -/
theorem Production.Reads.alone {α : Type} {R : Production α} {goesOn : Prop} {text : List Char}
    {P : α → Prop} (reads : Reads file R goesOn text P) (p : Position) :
    ∃ used a, P a ∧ (∀ rest, Lexeme.StopsAlike [] rest → Spells file p text rest used) ∧
      ∀ tokens, (goesOn → Unattached tokens) → R (used ++ tokens) a tokens := by
  obtain ⟨used, a, hSpells, hP, hR⟩ := reads p [] nofun
  have hEnd : scanFrom file (p.after text) [] = .ok [⟨.endOfInput, p.after text⟩] := by
    rw [scanFrom]
  have hScan := hSpells _ hEnd
  rw [List.append_nil] at hScan
  refine ⟨used, a, hP, fun rest alike tokens scan => ?_, hR⟩
  rw [scanFrom_append hScan alike, scan, List.dropLast_concat]
  rfl

/-- The parser of values reads what the grammar derives. -/
theorem Node.readsIn_of_derives {p : Position} {text rest : List Char} {node : Node}
    {used : List Token} (spells : Spells file p text rest used)
    (derives : ∀ t later, scanFrom file (p.after text) rest = .ok (t :: later) →
      Node.Derives file maxNesting (used ++ t :: later) node (t :: later)) :
    Node.ReadsIn file p text rest node := by
  intro t later scan
  have hScan := spells _ scan
  have hClosed := (scanFrom_sound hScan).2
  have hDerives := derives t later scan
  obtain ⟨u, more, hTokens⟩ := List.exists_cons_of_ne_nil hClosed.ne_nil
  rw [hTokens] at hScan hClosed hDerives
  have hRuns := (Node.parserAt_accepts maxNesting).1.run_iff ⟨file, u, more⟩ rfl hClosed node
    ⟨file, t, later⟩
  exact ⟨u, more, hScan, hRuns.2 ⟨rfl, hDerives⟩⟩

namespace Value

/-! ### Room for nested values -/

theorem Printable.succ {room : Nat} {value : Value} (printable : value.Printable room) :
    value.Printable (room + 1) := by
  induction room generalizing value with
  | zero => exact printable.elim
  | succ room ih => exact ⟨printable.1, fun part mem => ih (printable.2 part mem)⟩

/-- What stands inside of a value that can be printed can be printed. -/
theorem Holds.printable {room : Nat} {value inner : Value} (holds : value.Holds inner)
    (printable : value.Printable room) : inner.Printable room := by
  induction holds generalizing room with
  | self => exact printable
  | part mem _ ih =>
      cases room with
      | zero => exact printable.elim
      | succ room => exact (ih (printable.2 _ mem)).succ

/-! ### Items on lines of their own -/

/-- No item goes on with the bracket that begins the next one. -/
theorem Together.isChain {items : List Value} (together : Together items) :
    items.IsChain fun v w => v.GoesOn → ¬w.IsBare := by
  have hEach : ∀ v ∈ items, ∀ w ∈ items, v.GoesOn → ¬w.IsBare := by
    intro v hv w hw goesOn
    rcases together with hClosed | hLabelled
    · exact absurd goesOn (hClosed v hv)
    · exact hLabelled w hw
  exact (List.pairwise_of_forall_mem_list hEach).isChain

/-- The items that are read from lines do not begin with the bracket of a payload, if none of the
printed ones does. -/
theorem LinesRead.apart {room depth : Nat} {p : Position} {values : List Value} {nodes : List Node}
    (lines : LinesRead file depth p values nodes) (labelled : ∀ value ∈ values, ¬value.IsBare) :
    ∀ node ∈ nodes, (Node.Derives file room).Apart node := by
  intro node mem
  obtain ⟨value, hValue, hWritten⟩ := exists_of_forall₂ lines.forall₂ node mem
  exact Node.apart_of_written hWritten (labelled value hValue)

/-- By induction on the items: each line is read alone as it is with the lines behind it. -/
theorem lines_read {room : Nat} {items : List Value} (le : room ≤ maxNesting)
    (printable : ∀ item ∈ items, item.Printable room) (together : Together items)
    (depth outer : Nat) (p : Position) (rest : List Char) : ∃ used nodes,
      Spells file p ((items.flatMap fun item => newline depth ++ item.source depth) ++
        newline outer ++ [']']) rest used ∧ LinesRead file depth p items nodes ∧
      ∀ tokens, Items .square (Node.Derives file room) (used ++ tokens) nodes tokens := by
  induction items generalizing p with
  | nil =>
      have hClosing : Spells file (p.after (newline outer)) [']'] rest _ :=
        Spells.mark (.closing .square)
      exact ⟨_, [], Spells.append (Spells.newline outer) hClosing, .nil, fun tokens => .close rfl⟩
  | cons item items ih =>
      let start := p.after (newline depth)
      let others := (items.flatMap fun item => newline depth ++ item.source depth) ++
        newline outer ++ [']']
      have hReads : Reads file (Node.Derives file room) item.GoesOn (item.source depth)
          item.WrittenAs := Value.reads depth (printable item List.mem_cons_self)
      obtain ⟨used, node, hWritten, hSpells, hDerives⟩ := hReads.alone start
      have hOthers : Together items :=
        together.imp (fun h value mem => h value (List.mem_cons_of_mem _ mem))
          (fun h value mem => h value (List.mem_cons_of_mem _ mem))
      obtain ⟨more, nodes, hMore, hLines, hItems⟩ :=
        ih (fun value mem => printable value (List.mem_cons_of_mem _ mem)) hOthers
          (start.after (item.source depth))
      have hAlone : Node.ReadsIn file start (item.source depth) [] node := by
        apply Node.readsIn_of_derives (hSpells [] (.refl []))
        intro t later scan
        rw [scanFrom] at scan
        cases scan
        apply Node.derives_of_le le
        exact hDerives _ fun _ => unattached_of_end rfl
      -- behind the item a line feed follows, which ends it like the end of the text
      have hLine : Lexeme.StopsAlike [] (others ++ rest) := by
        obtain ⟨back, hBreak⟩ : ∃ back, others ++ rest = '\n' :: back := by
          cases items <;> exact ⟨_, rfl⟩
        rw [hBreak]
        exact .newline [] back
      -- no payload follows: either the item takes none, or no other item begins with a bracket
      have hFree : ∀ tokens, item.GoesOn → Unattached (more ++ tokens) := by
        intro tokens goesOn
        rcases together with hClosed | hLabelled
        · exact absurd goesOn (hClosed item List.mem_cons_self)
        · apply (hItems tokens).unattached
          exact hLines.apart fun value mem => hLabelled value (List.mem_cons_of_mem _ mem)
      refine ⟨used ++ more, node :: nodes, ?_, .cons hAlone hWritten hLines, fun tokens => ?_⟩
      · have hAll := Spells.append (Spells.newline depth) (Spells.append (hSpells _ hLine) hMore)
        simpa [others] using hAll
      · rw [List.append_assoc]
        exact .plain (hDerives _ (hFree tokens)) (hItems tokens)

/-- The text of an array whose items stand on lines of their own. -/
theorem source_array_of_lines {items : List Value} (lines : items.any isBlock = true)
    (depth : Nat) :
    (array items).source depth = '[' :: ((items.flatMap fun item =>
      newline (depth + 1) ++ item.source (depth + 1)) ++ newline depth ++ [']']) := by
  have hNonempty : items ≠ [] := by
    intro h
    rw [h] at lines
    cases lines
  rw [source, if_pos lines, itemSources_eq_map]
  simp [block, hNonempty, List.flatMap_map]

/-- An array whose items stand on lines of their own is read as one of the items that are read from
the lines. -/
theorem array_lines_read {items : List Value} (printable : (array items).Printable maxNesting)
    (lines : items.any isBlock = true) (depth : Nat) (p : Position) (rest : List Char) :
    ∃ nodes span, Node.ReadsIn file p ((array items).source depth) rest ⟨.array nodes, span⟩ ∧
      LinesRead file (depth + 1) (p.after ['[']) items nodes := by
  obtain ⟨room, hRoom⟩ : ∃ room, maxNesting = room + 1 := ⟨127, rfl⟩
  rw [hRoom] at printable
  obtain ⟨hTogether, hItems⟩ := printable
  have hLe : room ≤ maxNesting := by omega
  let opening : Token := ⟨.mark (.opening .square), p⟩
  obtain ⟨used, nodes, hSpells, hLines, hDerives⟩ :=
    lines_read hLe hItems (hTogether lines) (depth + 1) depth (p.after ['[']) rest
  refine ⟨nodes, opening.span file, ?_, hLines⟩
  rw [source_array_of_lines lines]
  apply Node.readsIn_of_derives (Spells.mark_cons (.opening .square) hSpells)
  intro t later _
  rw [hRoom]
  refine ⟨fun u hu => ?_, .array (.intro rfl (hDerives _))⟩
  cases hu
  rfl

end Value

/-- Every array in a checked document has items of one class, and no null where an array type is
declared for it. So where the printer puts items on lines of their own, no alternative without a
payload stands in front of an object that begins with a bracket, and if the document comes from
files, then the printed array is read as one of as many items, each of which is read from its own
line. -/
theorem Configuration.arrays_of_check {bundle : Bundle} {registry : Registry} {options : Options}
    {c : Configuration} (checks : bundle.check registry options = .ok c) :
    (∀ items, c.toValue.Holds (.array items) → Value.Homogeneous items) ∧
    (∀ value, c.toValue.Holds value → value = c.toValue ∨ ∃ type?, c.Has registry type? value) ∧
    (∀ type items, c.Has registry (some (.array type)) (.array items) → .null ∉ items) ∧
    ∀ items, c.toValue.Holds (.array items) → items.any Value.isBlock = true →
      (items.IsChain fun v w => v.GoesOn → ¬w.IsBare) ∧
      (bundle.IsResolved → ∀ file depth p rest, ∃ nodes span, nodes.length = items.length ∧
        Node.ReadsIn file p ((Value.array items).source depth) rest ⟨.array nodes, span⟩ ∧
        Value.LinesRead file (depth + 1) (p.after ['[']) items nodes) := by
  have hHomogeneous : ∀ items, c.toValue.Holds (.array items) → Value.Homogeneous items := by
    intro items holds
    rcases exists_has checks holds with hRoot | ⟨type?, has⟩
    · cases hRoot
    · exact (has.stands checks).homogeneous
  refine ⟨hHomogeneous, fun value holds => exists_has checks holds, ?_, ?_⟩
  · intro type items has
    exact (has.stands checks).null_not_mem
  · intro items holds lines
    apply And.intro (Value.together_of_homogeneous (hHomogeneous items holds)).isChain
    intro resolved file depth p rest
    have hPrintable : (Value.array items).Printable maxNesting := by
      cases holds with
      | part mem holds => exact holds.printable ((printable_of_check checks resolved).2 _ mem)
    obtain ⟨nodes, span, hReads, hLines⟩ := Value.array_lines_read hPrintable lines depth p rest
    exact ⟨nodes, span, hLines.forall₂.length_eq.symm, hReads, hLines⟩

/-- Two alternatives of one enum stand on lines of their own, and the block of the second one is not
taken for the payload of the first. -/
theorem Configuration.alternatives_on_lines_of_check :
    let at1 (column : Nat) : Span := ⟨"main", 1, column⟩
    let choice : Declaration := ⟨"E", .choice [⟨"A", .unit, at1 11⟩,
      ⟨"B", .fields [⟨"n", .integer, false, at1 17⟩], at1 13⟩], at1 1⟩
    let record : Declaration := ⟨"T", .record [⟨"l", .array (.named "E"), false, at1 38⟩], at1 28⟩
    let array : Node := ⟨.array [⟨.variant "E" "A" .unit, at1 60⟩,
      ⟨.variant "E" "B" (.fields [⟨"n", at1 70, ⟨.integer 1, at1 73⟩⟩]), at1 64⟩], at1 59⟩
    let root : Root :=
      ⟨[⟨"t", at1 49, ⟨.object (some "T") [⟨"l", at1 56, array⟩] (at1 54), at1 52⟩⟩], at1 47⟩
    let bundle : Bundle := ⟨⟨"main"⟩, [⟨"main"⟩], [choice, record], root⟩
    let registry : Registry := ⟨[choice, record], by decide⟩
    let items : List Value :=
      [.variant "E" "A" .unit, .variant "E" "B" (.fields [("n", .integer 1)])]
    let c : Configuration := ⟨[("t", .object (some "T") [("l", .array items)])]⟩
    bundle.IsResolved ∧ bundle.check registry .default = .ok c ∧ c.toValue.Holds (.array items) ∧
      c.Has registry (some (.array (.named "E"))) (.array items) ∧
      Value.Homogeneous items ∧ .null ∉ items ∧
      ∃ nodes span, nodes.length = 2 ∧
        Node.ReadsIn "copy" .start ((Value.array items).source 0) [] ⟨.array nodes, span⟩ ∧
        Value.LinesRead "copy" 1 (Position.start.after ['[']) items nodes := by
  intro at1 choice record array root bundle registry items c
  let tokens : List Token :=
    [⟨.mark .atSign, ⟨1, 1, 0⟩⟩, ⟨.word "enum", ⟨1, 2, 1⟩⟩, ⟨.word "E", ⟨1, 7, 6⟩⟩,
      ⟨.mark (.opening .brace), ⟨1, 9, 8⟩⟩, ⟨.word "A", ⟨1, 11, 10⟩⟩, ⟨.word "B", ⟨1, 13, 12⟩⟩,
      ⟨.mark (.opening .brace), ⟨1, 15, 14⟩⟩, ⟨.word "n", ⟨1, 17, 16⟩⟩,
      ⟨.mark .colon, ⟨1, 18, 17⟩⟩, ⟨.word "int", ⟨1, 20, 19⟩⟩,
      ⟨.mark (.closing .brace), ⟨1, 24, 23⟩⟩, ⟨.mark (.closing .brace), ⟨1, 26, 25⟩⟩,
      ⟨.mark .atSign, ⟨1, 28, 27⟩⟩, ⟨.word "type", ⟨1, 29, 28⟩⟩, ⟨.word "T", ⟨1, 34, 33⟩⟩,
      ⟨.mark (.opening .brace), ⟨1, 36, 35⟩⟩, ⟨.word "l", ⟨1, 38, 37⟩⟩,
      ⟨.mark .colon, ⟨1, 39, 38⟩⟩, ⟨.mark (.opening .square), ⟨1, 41, 40⟩⟩,
      ⟨.word "E", ⟨1, 42, 41⟩⟩, ⟨.mark (.closing .square), ⟨1, 43, 42⟩⟩,
      ⟨.mark (.closing .brace), ⟨1, 45, 44⟩⟩, ⟨.mark (.opening .brace), ⟨1, 47, 46⟩⟩,
      ⟨.word "t", ⟨1, 49, 48⟩⟩, ⟨.mark .colon, ⟨1, 50, 49⟩⟩, ⟨.word "T", ⟨1, 52, 51⟩⟩,
      ⟨.mark (.opening .brace), ⟨1, 54, 53⟩⟩, ⟨.word "l", ⟨1, 56, 55⟩⟩,
      ⟨.mark .colon, ⟨1, 57, 56⟩⟩, ⟨.mark (.opening .square), ⟨1, 59, 58⟩⟩,
      ⟨.word "E", ⟨1, 60, 59⟩⟩, ⟨.mark .dot, ⟨1, 61, 60⟩⟩, ⟨.word "A", ⟨1, 62, 61⟩⟩,
      ⟨.word "E", ⟨1, 64, 63⟩⟩, ⟨.mark .dot, ⟨1, 65, 64⟩⟩, ⟨.word "B", ⟨1, 66, 65⟩⟩,
      ⟨.mark (.opening .brace), ⟨1, 68, 67⟩⟩, ⟨.word "n", ⟨1, 70, 69⟩⟩,
      ⟨.mark .colon, ⟨1, 71, 70⟩⟩, ⟨.integer 1, ⟨1, 73, 72⟩⟩,
      ⟨.mark (.closing .brace), ⟨1, 75, 74⟩⟩, ⟨.mark (.closing .square), ⟨1, 76, 75⟩⟩,
      ⟨.mark (.closing .brace), ⟨1, 78, 77⟩⟩, ⟨.mark (.closing .brace), ⟨1, 80, 79⟩⟩,
      ⟨.endOfInput, ⟨1, 81, 80⟩⟩]
  have hScan : scan "main" ("@enum E \x7b A B \x7b n: int \x7d \x7d @type T \x7b l: [E] \x7d " ++
      "\x7b t: T \x7b l: [E.A E.B \x7b n: 1 \x7d] \x7d \x7d") = .ok tokens := by
    cbv
  have hDocument : Document.ofTokens "main" tokens = .ok ⟨[], [choice, record], root⟩ := by
    with_unfolding_all rfl
  have hParse := (congrArg (· >>= Document.ofTokens "main") hScan).trans hDocument
  have hResolved : bundle.IsResolved := ⟨.empty, ⟨"main"⟩, [], _, ⟨_, _, hParse⟩, by cbv⟩
  have hChecks : bundle.check registry .default = .ok c := by cbv
  have hHolds : c.toValue.Holds (.array items) :=
    .part List.mem_cons_self (.part List.mem_cons_self .self)
  let field : Field := ⟨"l", .array (.named "E"), false, at1 38⟩
  have hTakes : registry.TakesObject none (some "T") (.ofType "T" [field]) :=
    .annotated rfl rfl (.inl registry.undeclared_none)
  have hPuts : Value.Puts registry none (.object (some "T") [("l", .array items)])
      (some field.type) (.array items) :=
    .field hTakes List.mem_cons_self rfl
  have hHas : c.Has registry (some (.array (.named "E"))) (.array items) :=
    .part (.root List.mem_cons_self) hPuts
  obtain ⟨hHomogeneous, -, hNull, hArrays⟩ := arrays_of_check hChecks
  obtain ⟨-, hReads⟩ := hArrays items hHolds rfl
  exact ⟨hResolved, hChecks, hHolds, hHas, hHomogeneous items hHolds, hNull _ items hHas,
    hReads hResolved "copy" 0 .start []⟩

end TypedConfig
