import TypedConfig.Proofs.Grammar
/-!
More room for nested values. A production that derives what another one does can stand in its place
in every list, and so what is derived with room for some levels is derived with more room, too.
-/
namespace TypedConfig

namespace Production

variable {α β : Type} {R S : Production α}

/-- Whatever the first production derives, the second one derives. -/
def Below (R S : Production α) : Prop := ∀ input a rest, R input a rest → S input a rest

namespace Below

theorem items (below : R.Below S) (b : Bracket) : (Items b R).Below (Items b S) := by
  intro input as rest items
  induction items with
  | close closing => exact .close closing
  | plain first _ ih => exact .plain (below _ _ _ first) ih
  | separated first comma _ ih => exact .separated (below _ _ _ first) comma ih

theorem block (below : R.Below S) (b : Bracket) : (Block b R).Below (Block b S) := by
  intro input as rest block
  obtain ⟨opening, items⟩ := block
  exact .intro opening (below.items b _ _ _ items)

theorem keyedBlock (below : R.Below S) (key : α → String) :
    (KeyedBlock key R).Below (KeyedBlock key S) := by
  intro input as rest keyed
  exact ⟨below.block .brace _ _ _ keyed.1, keyed.2⟩

theorem slots (below : R.Below S) : (Slots R).Below (Slots S) := by
  intro input as rest slots
  induction slots with
  | last first closing => exact .last (below _ _ _ first) closing
  | more first comma _ ih => exact .more (below _ _ _ first) comma ih

theorem payload {F G : Production (List β)} (below : R.Below S) (fields : F.Below G) :
    (Production.Payload R F).Below (Production.Payload S G) := by
  intro input shape rest payload
  cases payload with
  | unit round brace => exact .unit round brace
  | tuple tuple =>
      obtain ⟨opening, slots⟩ := tuple
      exact .tuple (.intro opening (below.slots _ _ _ slots))
  | fields block => exact .fields (fields _ _ _ block)

end Below

end Production

variable {file : String} {V W : Production Node}

theorem Entry.block_below (below : V.Below W) : (Entry.Block file V).Below (Entry.Block file W) := by
  have hEntry : (Entry.Derives file V).Below (Entry.Derives file W) := by
    intro input entry rest derives
    obtain ⟨word, colon, inner⟩ := derives
    exact .intro word colon (below _ _ _ inner)
  exact hEntry.keyedBlock Entry.key

theorem Form.derives_below (below : V.Below W) : (Form.Derives file V).Below (Form.Derives file W) := by
  intro input form rest derives
  cases derives with
  | string quoted => exact .string quoted
  | integer integer => exact .integer integer
  | float fraction reads => exact .float fraction reads
  | true word => exact .true word
  | false word => exact .false word
  | null word => exact .null word
  | array block => exact .array (below.block .square _ _ _ block)
  | object block => exact .object (Entry.block_below below _ _ _ block)
  | annotated word other block => exact .annotated word other (Entry.block_below below _ _ _ block)
  | extended keyword known opening argument closing =>
      exact .extended keyword known opening argument closing
  | variant word other dot alternative carried =>
      exact .variant word other dot alternative
        (below.payload (Entry.block_below below) _ _ _ carried)

/-- By induction on the room: one level more is one level more for each part. -/
theorem Node.derives_below (file : String) (room : Nat) :
    (Node.Derives file room).Below (Node.Derives file (room + 1)) := by
  induction room with
  | zero =>
      intro input node rest derives
      exact derives.elim
  | succ room ih =>
      intro input node rest derives
      exact ⟨derives.1, Form.derives_below ih _ _ _ derives.2⟩

/-- What is derived with some room is derived with more. -/
theorem Node.derives_of_le {room more : Nat} (le : room ≤ more) :
    (Node.Derives file room).Below (Node.Derives file more) := by
  induction le with
  | refl => exact fun _ _ _ derives => derives
  | step _ ih =>
      intro input node rest derives
      exact derives_below file _ _ _ _ (ih _ _ _ derives)

end TypedConfig
