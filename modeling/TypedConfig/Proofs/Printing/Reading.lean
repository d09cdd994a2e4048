import TypedConfig.Proofs.Grammar.Documents
import TypedConfig.Proofs.Inclusion.Visited
import TypedConfig.Proofs.Printing.Values
/-!
What is read from a text can be printed. The lexer makes words and finite fractions only, and what
the grammar derives from such tokens is spelled with them.
-/
namespace TypedConfig

namespace Token

/-- Words are words, and fractions are finite. -/
def Kind.Sound : Kind → Prop
  | word text => IsWord text
  | fraction text => (Number.Binary64.read text.toList).any Number.Binary64.isFinite = true
  | _ => True

/-- All tokens are as the lexer makes them. -/
def Sound (tokens : List Token) : Prop := ∀ t ∈ tokens, t.kind.Sound

theorem number_sound {sign cs : List Char} {l : Lexeme} (runs : Lexeme.number sign cs = .ok l) :
    ∀ kind ∈ l.kind, kind.Sound ∧ kind ≠ .endOfInput := by
  simp only [Lexeme.number] at runs
  split at runs
  · split at runs
    · cases runs
      rintro kind ⟨⟩
      exact ⟨trivial, by simp⟩
    · cases runs
  · split at runs
    · next hFinite =>
      cases runs
      rintro kind ⟨⟩
      refine ⟨?_, by simp⟩
      show (Number.Binary64.read (String.ofList _).toList).any _ = true
      rw [String.toList_ofList]
      exact hFinite
    · cases runs

/-- A lexeme is no end of input, and what the lexer says of it is true. -/
theorem next_sound {c : Char} {cs : List Char} {l : Lexeme} (runs : Lexeme.next c cs = .ok l) :
    ∀ kind ∈ l.kind, kind.Sound ∧ kind ≠ .endOfInput := by
  unfold Lexeme.next at runs
  split at runs
  · cases runs
    nofun
  split at runs
  · split at runs
    · cases runs
      nofun
    · cases runs
  split at runs
  · cases runs
    nofun
  split at runs
  · split at runs
    · cases runs
      rintro kind ⟨⟩
      exact ⟨trivial, nofun⟩
    · cases runs
  split at runs
  · exact number_sound runs
  split at runs
  · exact number_sound runs
  split at runs
  · cases runs
    rintro kind ⟨⟩
    exact ⟨trivial, nofun⟩
  split at runs
  · next hStart =>
    cases runs
    rintro kind ⟨⟩
    refine ⟨⟨c, cs.takeWhile Lexeme.isWordPart, String.toList_ofList, hStart, ?_⟩, nofun⟩
    intro d mem
    exact List.all_eq_true.1 List.all_takeWhile d mem
  · cases runs

/-- By induction on the text: only the last token is the end of input, and all are sound. -/
theorem scanFrom_sound {file : String} {p : Position} {cs : List Char} {tokens : List Token}
    (runs : scanFrom file p cs = .ok tokens) : Sound tokens ∧ Closed tokens := by
  induction cs using Lexeme.induct generalizing p tokens with
  | nil =>
      rw [scanFrom] at runs
      cases runs
      refine ⟨?_, .singleton rfl⟩
      intro t mem
      rw [List.mem_singleton] at mem
      rw [mem]
      trivial
  | fault c cs fault hNext =>
      rw [scanFrom_cons_error hNext] at runs
      cases runs
  | step c cs l hNext ih =>
      rw [scanFrom_cons hNext] at runs
      cases hRest : scanFrom file (p.after l.used) l.rest with
      | error d =>
          rw [hRest] at runs
          cases runs
      | ok others =>
          rw [hRest] at runs
          cases runs
          obtain ⟨hOthers, hClosed⟩ := ih hRest
          cases hKind : l.kind with
          | none => exact ⟨hOthers, hClosed⟩
          | some kind =>
              obtain ⟨hSound, hInside⟩ := next_sound hNext kind hKind
              refine ⟨?_, .cons hInside hClosed⟩
              intro t mem
              rcases List.mem_cons.1 mem with rfl | mem
              · exact hSound
              · exact hOthers t mem

theorem Sound.of_cons {t : Token} {later : List Token} (sound : Sound (t :: later)) : Sound later :=
  fun u mem => sound u (List.mem_cons_of_mem _ mem)

theorem Sound.isWord {t : Token} {later : List Token} {word : String} (sound : Sound (t :: later))
    (kind : t.kind = .word word) : IsWord word := by
  have hSound := sound t List.mem_cons_self
  rw [kind] at hSound
  exact hSound

end Token

/-! ### What productions yield -/

namespace Production

open Token

variable {α β : Type} {R : Production α} {P : α → Prop}

/-- What is derived from sound tokens has a property, and leaves sound tokens. -/
def Yields (R : Production α) (P : α → Prop) : Prop :=
  ∀ input a rest, Sound input → R input a rest → P a ∧ Sound rest

theorem Yields.many (yields : R.Yields P) : (Many R).Yields fun as => ∀ a ∈ as, P a := by
  intro input as rest sound many
  induction many with
  | done => exact ⟨by simp, sound⟩
  | more first _ ih =>
      obtain ⟨hP, hSound⟩ := yields _ _ _ sound first
      obtain ⟨hOthers, hRest⟩ := ih hSound
      exact ⟨List.forall_mem_cons.2 ⟨hP, hOthers⟩, hRest⟩

theorem Yields.items {b : Bracket} (yields : R.Yields P) :
    (Items b R).Yields fun as => ∀ a ∈ as, P a := by
  intro input as rest sound items
  induction items with
  | close _ => exact ⟨by simp, sound.of_cons⟩
  | plain first _ ih =>
      obtain ⟨hP, hSound⟩ := yields _ _ _ sound first
      obtain ⟨hOthers, hRest⟩ := ih hSound
      exact ⟨List.forall_mem_cons.2 ⟨hP, hOthers⟩, hRest⟩
  | separated first _ _ ih =>
      obtain ⟨hP, hSound⟩ := yields _ _ _ sound first
      obtain ⟨hOthers, hRest⟩ := ih hSound.of_cons
      exact ⟨List.forall_mem_cons.2 ⟨hP, hOthers⟩, hRest⟩

theorem Yields.block {b : Bracket} (yields : R.Yields P) :
    (Block b R).Yields fun as => ∀ a ∈ as, P a := by
  rintro input as rest sound ⟨_, items⟩
  exact yields.items _ _ _ sound.of_cons items

theorem Yields.keyed {key : α → String} (yields : R.Yields P) :
    (KeyedBlock key R).Yields fun as => (as.map key).Nodup ∧ ∀ a ∈ as, P a := by
  rintro input as rest sound ⟨block, nodup⟩
  obtain ⟨hAll, hSound⟩ := yields.block _ _ _ sound block
  exact ⟨⟨nodup, hAll⟩, hSound⟩

theorem Yields.slots (yields : R.Yields P) :
    (Slots R).Yields fun as => as ≠ [] ∧ ∀ a ∈ as, P a := by
  intro input as rest sound slots
  induction slots with
  | last first _ =>
      obtain ⟨hP, hSound⟩ := yields _ _ _ sound first
      exact ⟨⟨by simp, by simpa using hP⟩, hSound.of_cons⟩
  | more first _ _ ih =>
      obtain ⟨hP, hSound⟩ := yields _ _ _ sound first
      obtain ⟨⟨-, hOthers⟩, hRest⟩ := ih hSound.of_cons
      exact ⟨⟨by simp, List.forall_mem_cons.2 ⟨hP, hOthers⟩⟩, hRest⟩

theorem Yields.tuple (yields : R.Yields P) :
    (Tuple R).Yields fun as => as ≠ [] ∧ ∀ a ∈ as, P a := by
  rintro input as rest sound ⟨_, slots⟩
  exact yields.slots _ _ _ sound.of_cons slots

/-- A payload yields what its slots and its fields do. -/
theorem Yields.payload {S : Production (List β)} {Q : List β → Prop} (slots : R.Yields P)
    (fields : S.Yields Q) {F : TypedConfig.Payload α β → Prop} (unit : F .unit)
    (ofSlots : ∀ as, as ≠ [] → (∀ a ∈ as, P a) → F (.tuple as))
    (ofFields : ∀ bs, Q bs → F (.fields bs)) : (Production.Payload R S).Yields F := by
  intro input shape rest sound payload
  cases payload with
  | unit _ _ => exact ⟨unit, sound⟩
  | tuple derives =>
      obtain ⟨⟨hNonempty, hAll⟩, hSound⟩ := slots.tuple _ _ _ sound derives
      exact ⟨ofSlots _ hNonempty hAll, hSound⟩
  | fields derives =>
      obtain ⟨hQ, hSound⟩ := fields _ _ _ sound derives
      exact ⟨ofFields _ hQ, hSound⟩

end Production

/-! ### Declarations -/

section

variable {file : String}

open Production

theorem TypeExpr.derives_yields (room : Nat) :
    (TypeExpr.Derives room).Yields (TypeExpr.Printable room) := by
  intro input type rest sound derives
  induction derives with
  | word name => exact ⟨.word (sound.isWord name), sound.of_cons⟩
  | array _ _ _ ih =>
      obtain ⟨hInner, hSound⟩ := ih sound.of_cons
      exact ⟨.array hInner, hSound.of_cons⟩

theorem Slot.derives_yields :
    (Slot.Derives file).Yields fun s => s.type.Printable maxNesting := by
  rintro input slot rest sound ⟨inner⟩
  exact TypeExpr.derives_yields _ _ _ _ sound inner

theorem Field.derives_yields : (Field.Derives file).Yields Field.Printable := by
  intro input field rest sound derives
  cases derives with
  | required word _ inner =>
      obtain ⟨hType, hSound⟩ := TypeExpr.derives_yields _ _ _ _ sound.of_cons.of_cons inner
      exact ⟨⟨sound.isWord word, hType⟩, hSound⟩
  | optional word _ _ inner =>
      obtain ⟨hType, hSound⟩ := TypeExpr.derives_yields _ _ _ _ sound.of_cons.of_cons.of_cons inner
      exact ⟨⟨sound.isWord word, hType⟩, hSound⟩

theorem Variant.derives_yields : (Variant.Derives file).Yields Variant.Printable := by
  rintro input variant rest sound ⟨word, carried⟩
  obtain ⟨hShape, hSound⟩ := Yields.payload Slot.derives_yields Field.derives_yields.keyed
    (F := Payload.Printable) trivial (fun slots nonempty each => ⟨nonempty, each⟩)
    (fun fields each => each) _ _ _ sound.of_cons carried
  exact ⟨⟨sound.isWord word, hShape⟩, hSound⟩

theorem Declaration.derives_yields : (Declaration.Derives file).Yields Declaration.Printable := by
  intro input declaration rest sound derives
  cases derives with
  | record _ _ word block =>
      obtain ⟨hFields, hSound⟩ :=
        Field.derives_yields.keyed _ _ _ sound.of_cons.of_cons.of_cons block
      exact ⟨⟨sound.of_cons.of_cons.isWord word, hFields⟩, hSound⟩
  | choice _ _ word block nonempty =>
      obtain ⟨hVariants, hSound⟩ :=
        Variant.derives_yields.keyed _ _ _ sound.of_cons.of_cons.of_cons block
      exact ⟨⟨sound.of_cons.of_cons.isWord word, nonempty, hVariants⟩, hSound⟩

/-! ### Values -/

theorem Entry.block_yields {V : Production Node} {P : Node → Prop} (yields : V.Yields P) :
    (Entry.Block file V).Yields fun entries =>
      Entry.Keyed entries ∧ ∀ part ∈ entries.map Entry.value, P part := by
  have hEntry : (Entry.Derives file V).Yields fun entry =>
      Token.IsWord entry.key ∧ P entry.value := by
    rintro input entry rest sound ⟨word, colon, inner⟩
    obtain ⟨hP, hSound⟩ := yields _ _ _ sound.of_cons.of_cons inner
    exact ⟨⟨sound.isWord word, hP⟩, hSound⟩
  intro input entries rest sound block
  obtain ⟨⟨hNodup, hAll⟩, hSound⟩ := hEntry.keyed _ _ _ sound block
  refine ⟨⟨⟨hNodup, fun entry mem => (hAll entry mem).1⟩, fun part mem => ?_⟩, hSound⟩
  obtain ⟨entry, hMem, rfl⟩ := List.mem_map.1 mem
  exact (hAll entry hMem).2

/-- By induction on the room for nested values. -/
theorem Node.derives_yields (room : Nat) :
    (Node.Derives file room).Yields (Node.Readable room) := by
  induction room with
  | zero => exact fun _ _ _ _ derives => derives.elim
  | succ room ih =>
      rintro input ⟨form, span⟩ rest sound ⟨-, derives⟩
      cases derives with
      | string _ | integer _ | true _ | false _ | null _ =>
          exact ⟨⟨trivial, nofun⟩, sound.of_cons⟩
      | float fraction reads =>
          have hFinite := sound _ List.mem_cons_self
          rw [fraction] at hFinite
          rw [Token.Kind.Sound, reads] at hFinite
          exact ⟨⟨hFinite, nofun⟩, sound.of_cons⟩
      | array block =>
          obtain ⟨hItems, hSound⟩ := ih.block _ _ _ sound block
          exact ⟨⟨trivial, hItems⟩, hSound⟩
      | object block =>
          obtain ⟨⟨hKeyed, hParts⟩, hSound⟩ := Entry.block_yields ih _ _ _ sound block
          exact ⟨⟨⟨nofun, hKeyed⟩, hParts⟩, hSound⟩
      | annotated word other block =>
          obtain ⟨⟨hKeyed, hParts⟩, hSound⟩ := Entry.block_yields ih _ _ _ sound.of_cons block
          refine ⟨⟨⟨?_, hKeyed⟩, hParts⟩, hSound⟩
          rintro name ⟨⟩
          exact ⟨sound.isWord word, other⟩
      | extended _ _ _ _ _ => exact ⟨⟨trivial, nofun⟩, sound.of_cons.of_cons.of_cons.of_cons⟩
      | variant word other _ alternative carried =>
          obtain ⟨hPayload, hSound⟩ := Yields.payload ih (Entry.block_yields ih)
            (F := fun payload => payload.Filled Entry.Keyed ∧
              ∀ part ∈ payload.parts, Node.Readable room part) ⟨trivial, nofun⟩
            (fun items nonempty each => ⟨nonempty, each⟩) (fun entries each => each)
            _ _ _ sound.of_cons.of_cons.of_cons carried
          exact ⟨⟨⟨⟨sound.isWord word, other⟩, sound.of_cons.of_cons.isWord alternative,
            hPayload.1⟩, hPayload.2⟩, hSound⟩

end

/-! ### Documents -/

theorem Document.IsParsed.derives {document : Document} (parsed : document.IsParsed) :
    ∃ file tokens, Token.Sound tokens ∧ Document.Derives file tokens document := by
  obtain ⟨file, source, hParse⟩ := parsed
  cases hScan : Token.scan file source with
  | error d =>
      rw [Document.parse, hScan] at hParse
      cases hParse
  | ok tokens =>
      rw [Document.parse, hScan] at hParse
      obtain ⟨hSound, hClosed⟩ := Token.scanFrom_sound hScan
      exact ⟨file, tokens, hSound, Document.derives_of_ofTokens hClosed hParse⟩

theorem Include.derives_yields {file : String} : (Include.Derives file).Yields fun _ => True := by
  intro input directive rest sound derives
  cases derives with
  | intro _ _ _ => exact ⟨trivial, sound.of_cons.of_cons.of_cons⟩

theorem Declaration.IsParsed.printable {d : Declaration} (parsed : d.IsParsed) : d.Printable := by
  obtain ⟨document, hParsed, hMem⟩ := parsed
  obtain ⟨file, tokens, hSound, derives⟩ := hParsed.derives
  cases derives with
  | intro directives declared root ends =>
      obtain ⟨-, hMiddle⟩ := Include.derives_yields.many _ _ _ hSound directives
      obtain ⟨hAll, -⟩ := Declaration.derives_yields.many _ _ _ hMiddle declared
      exact hAll d hMem

/-- An entry of a root object that was read. -/
def Entry.Readable (entry : Entry) : Prop :=
  Token.IsWord entry.key ∧ entry.value.Readable maxNesting

/-- The keys of a root object that was read are different words. -/
theorem Document.IsParsed.root_readable {document : Document} (parsed : document.IsParsed) :
    Entry.Keyed document.root.entries ∧
      ∀ entry ∈ document.root.entries, entry.value.Readable maxNesting := by
  obtain ⟨file, tokens, hSound, derives⟩ := parsed.derives
  cases derives with
  | intro directives declared root ends =>
      obtain ⟨-, hMiddle⟩ := Include.derives_yields.many _ _ _ hSound directives
      obtain ⟨-, hBody⟩ := Declaration.derives_yields.many _ _ _ hMiddle declared
      obtain ⟨⟨hKeyed, hParts⟩, -⟩ :=
        Entry.block_yields (Node.derives_yields maxNesting) _ _ _ hBody root
      exact ⟨hKeyed, fun entry mem => hParts _ (List.mem_map_of_mem mem)⟩

theorem Document.IsParsed.entry_readable {document : Document} (parsed : document.IsParsed) :
    ∀ entry ∈ document.root.entries, entry.Readable := by
  obtain ⟨hKeyed, hReadable⟩ := parsed.root_readable
  exact fun entry mem => ⟨hKeyed.2 entry mem, hReadable entry mem⟩

/-! ### Bundles -/

/-- A bundle has the content of files that are parsed, without repetitions. -/
theorem Bundle.IsResolved.exists_files {bundle : Bundle} (resolved : bundle.IsResolved) :
    ∃ files : List (Path × Document), (∀ pair ∈ files, pair.2.IsParsed) ∧
      (Content.ofFiles files).Unrepeated ∧
      bundle.declarations = (Content.ofFiles files).declarations ∧
      bundle.root.entries = (Content.ofFiles files).entries := by
  obtain ⟨lib, path, visited, document, hParsed, hResolve⟩ := resolved
  obtain ⟨hRun, -⟩ := resolve_eq_ok_iff_of_visited.1 hResolve
  obtain ⟨files, ⟨below, hBelow, rfl⟩, hUnrepeated, rfl⟩ := resolve_eq_ok_iff.1 hRun
  refine ⟨_, fun pair mem => ?_, hUnrepeated, rfl, rfl⟩
  rcases List.mem_append.1 mem with mem | mem
  · have hFound := hBelow.document?_of_mem pair mem
    by_cases hRoot : pair.1 = path.normalize
    · rw [hRoot, Inclusion.document?_root] at hFound
      cases hFound
      exact hParsed
    · obtain ⟨source, -, hParse⟩ := (Inclusion.document?_eq_some_iff hRoot).1 hFound
      exact ⟨_, source, hParse⟩
  · rw [List.mem_singleton] at mem
    rw [mem]
    exact hParsed

theorem Bundle.IsResolved.keys_nodup {bundle : Bundle} (resolved : bundle.IsResolved) :
    (bundle.root.entries.map Entry.key).Nodup := by
  obtain ⟨files, -, hUnrepeated, -, hEntries⟩ := resolved.exists_files
  rw [hEntries]
  exact hUnrepeated.2

theorem Bundle.IsResolved.entry_readable {bundle : Bundle} (resolved : bundle.IsResolved) :
    ∀ entry ∈ bundle.root.entries, entry.Readable := by
  obtain ⟨files, hParsed, -, -, hEntries⟩ := resolved.exists_files
  intro entry mem
  rw [hEntries] at mem
  obtain ⟨pair, hPair, hEntry⟩ := List.mem_flatMap.1 mem
  exact (hParsed pair hPair).entry_readable entry hEntry

/-- The root object stands around the entries, with a level of its own. -/
theorem Bundle.IsResolved.root_readable {bundle : Bundle} (resolved : bundle.IsResolved) :
    Node.Readable (maxNesting + 1)
      ⟨.object none bundle.root.entries bundle.root.span, bundle.root.span⟩ := by
  refine ⟨⟨nofun, resolved.keys_nodup, fun entry mem => (resolved.entry_readable entry mem).1⟩,
    fun part mem => ?_⟩
  obtain ⟨entry, hEntry, rfl⟩ := List.mem_map.1 mem
  exact (resolved.entry_readable entry hEntry).2

end TypedConfig
