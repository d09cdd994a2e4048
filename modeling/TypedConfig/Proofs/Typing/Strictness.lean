import TypedConfig.Proofs.Printing.Formats
import TypedConfig.Proofs.Printing.Printability
import TypedConfig.Proofs.Typing.Exactness
/-!
Strict checking differs from lenient checking by one condition on what comes out: every public key
in it is a point of the curve. The two runs report different things on the way, so they are compared
by what fits and not step by step.
-/
namespace TypedConfig

/-! ### Literals -/

/-- A strict reader reads the keys that are points, as a lenient one does. -/
theorem PublicKey.parse_strict_eq_ok_iff {raw : List Char} {k : PublicKey} :
    parse true raw = .ok k ↔ parse false raw = .ok k ∧ k.isPoint = true := by
  simp [parse_eq_ok_iff]

namespace Value

/-- Every public key in a value, at any depth, is a point of the curve. -/
def KeysOnCurve (value : Value) : Prop := ∀ k, value.Holds (.pubkey k) → k.isPoint = true

theorem KeysOnCurve.part {value part : Value} (onCurve : value.KeysOnCurve)
    (mem : part ∈ value.parts) : part.KeysOnCurve :=
  fun k holds => onCurve k (.part mem holds)

end Value

namespace Options

variable {kind : Extended} {raw : String} {value : Value}

/-- What a literal denotes under strict options it denotes under lenient ones too. -/
theorem denote_lenient (denotes : denote ⟨true⟩ kind raw = .ok value) :
    denote ⟨false⟩ kind raw = .ok value := by
  rcases denote_eq_ok denotes with ⟨u, rfl, rfl, hParse⟩ | ⟨a, rfl, rfl, hParse⟩ |
    ⟨k, rfl, rfl, hParse⟩
  · exact denotes
  · exact denotes
  · rw [denote, (PublicKey.parse_strict_eq_ok_iff.1 hParse).1]
    rfl

/-- Strict options only demand that a key is a point. -/
theorem denote_strict (denotes : denote ⟨false⟩ kind raw = .ok value)
    (onCurve : value.KeysOnCurve) : denote ⟨true⟩ kind raw = .ok value := by
  rcases denote_eq_ok denotes with ⟨u, rfl, rfl, hParse⟩ | ⟨a, rfl, rfl, hParse⟩ |
    ⟨k, rfl, rfl, hParse⟩
  · exact denotes
  · exact denotes
  · rw [denote, PublicKey.parse_strict_eq_ok_iff.2 ⟨hParse, onCurve k .self⟩]
    rfl

end Options

/-! ### Other options -/

section

variable {registry : Registry} {options other : Options} {Q : Value → Prop}

/-- What becomes a value of some sort under some options becomes the same value under others. -/
def Node.Carries (registry : Registry) (options other : Options) (Q : Value → Prop) (node : Node) :
    Prop :=
  ∀ type? value, Node.Fits registry options type? node value → Q value →
    Node.Fits registry other type? node value

theorem Field.Takes.carried {field : Field} {node : Node} {value : Value}
    (takes : Field.Takes registry options field node value)
    (carries : node.Carries registry options other Q) (sort : Q value) :
    Field.Takes registry other field node value := by
  cases takes with
  | typed typed => exact .typed (carries (some field.type) value typed sort)
  | null optional => exact .null optional

theorem Entry.Fill.carried {fields : List Field} {entries : List Entry}
    {values : List (String × Value)} (fill : Entry.Fill registry options fields entries values)
    (carries : ∀ part ∈ entries.map Entry.value, part.Carries registry options other Q)
    (sorts : ∀ part ∈ values.map Prod.snd, Q part) :
    Entry.Fill registry other fields entries values := by
  obtain ⟨present, declared, keys, each⟩ := fill
  refine ⟨present, declared, keys, fun entry value field mem found => ?_⟩
  have hEntry : entry.value ∈ entries.map Entry.value :=
    List.mem_map_of_mem (List.of_mem_zip mem).1
  have hValue : value.2 ∈ values.map Prod.snd := List.mem_map_of_mem (List.of_mem_zip mem).2
  exact (each entry value field mem found).carried (carries _ hEntry) (sorts _ hValue)

theorem Payload.HasShape.carried {shape : Payload Slot Field} {payload : Payload Node Entry}
    {value : Payload Value (String × Value)}
    (carried : Payload.HasShape registry options shape payload value)
    (carries : ∀ part ∈ payload.parts, part.Carries registry options other Q)
    (sorts : ∀ part ∈ Value.payloadParts value, Q part) :
    Payload.HasShape registry other shape payload value := by
  cases carried with
  | unit => exact .unit
  | tuple arity lengths each =>
      refine .tuple arity lengths fun slot node value mem => ?_
      have hNode := (List.of_mem_zip (List.of_mem_zip mem).1).2
      exact carries node hNode (some slot.type) value (each slot node value mem)
        (sorts value (List.of_mem_zip mem).2)
  | fields block => exact .fields (block.carried carries sorts)

theorem Node.carried_items (type? : Option TypeExpr) {items : List Node} {values : List Value}
    (carries : ∀ part ∈ items, part.Carries registry options other Q) (sorts : ∀ part ∈ values, Q part)
    (each : ∀ node value, (node, value) ∈ items.zip values →
      Node.Fits registry options type? node value) :
    ∀ node value, (node, value) ∈ items.zip values → Node.Fits registry other type? node value :=
  fun node value mem => carries node (List.of_mem_zip mem).1 type? value (each node value mem)
    (sorts value (List.of_mem_zip mem).2)

theorem Node.Acceptable.carried {form : Form} {span : Span} {value : Value}
    (acceptable : Node.Acceptable registry options ⟨form, span⟩ value)
    (carries : ∀ part ∈ form.parts, part.Carries registry options other Q)
    (sorts : ∀ part ∈ value.parts, Q part)
    (denotes : ∀ kind raw, options.denote kind raw = .ok value → other.denote kind raw = .ok value) :
    Node.Acceptable registry other ⟨form, span⟩ value := by
  cases acceptable with
  | string => exact .string
  | integer => exact .integer
  | float => exact .float
  | boolean => exact .boolean
  | null => exact .null
  | extended literal => exact .extended (denotes _ _ literal)
  | array lengths each homogeneous =>
      exact .array lengths (Node.carried_items none carries sorts each) homogeneous
  | object keys each =>
      refine .object keys fun entry value mem => ?_
      exact carries entry.value (List.mem_map_of_mem (List.of_mem_zip mem).1) none value.2
        (each entry value mem) (sorts _ (List.mem_map_of_mem (List.of_mem_zip mem).2))
  | record found body block => exact .record found body (block.carried carries sorts)
  | choice found body alternative carried =>
      exact .choice found body alternative (carried.carried carries sorts)

theorem Node.HasType.carried {type : TypeExpr} {form : Form} {span : Span} {value : Value}
    (typed : Node.HasType registry options type ⟨form, span⟩ value)
    (carries : ∀ part ∈ form.parts, part.Carries registry options other Q)
    (sorts : ∀ part ∈ value.parts, Q part)
    (denotes : ∀ kind raw, options.denote kind raw = .ok value → other.denote kind raw = .ok value) :
    Node.HasType registry other type ⟨form, span⟩ value := by
  cases typed with
  | string => exact .string
  | integer => exact .integer
  | float => exact .float
  | widened => exact .widened
  | boolean => exact .boolean
  | quoted literal => exact .quoted (denotes _ _ literal)
  | extended literal => exact .extended (denotes _ _ literal)
  | array lengths each => exact .array lengths (Node.carried_items (some _) carries sorts each)
  | record found body label block =>
      exact .record found body label (block.carried carries sorts)
  | choice found body alternative carried =>
      exact .choice found body alternative (carried.carried carries sorts)
  | undeclared unknown acceptable =>
      exact .undeclared unknown (acceptable.carried carries sorts denotes)

/-- By induction on the written value: its literals denote what they denote under the other options,
and the parts of what it becomes are of the same sort. -/
theorem Node.carries (inherit : ∀ value, Q value → ∀ part ∈ value.parts, Q part)
    (denotes : ∀ {kind raw value}, options.denote kind raw = .ok value → Q value →
      other.denote kind raw = .ok value) (node : Node) :
    node.Carries registry options other Q := by
  induction node using Node.induct with
  | step form span ih =>
      intro type? value fits sort
      have hDenotes : ∀ kind raw, options.denote kind raw = .ok value →
          other.denote kind raw = .ok value :=
        fun _ _ literal => denotes literal sort
      cases type? with
      | none => exact Node.Acceptable.carried fits ih (inherit value sort) hDenotes
      | some type => exact Node.HasType.carried fits ih (inherit value sort) hDenotes

end

/-! ### Keys -/

section

variable {registry : Registry} {options : Options}

/-- Every part of what a form becomes is what some written value becomes. -/
theorem Form.Becomes.exists_fitsSome {form : Form} {value : Value}
    (becomes : Form.Becomes registry options form value) :
    ∀ part ∈ value.parts, ∃ node, Node.FitsSome registry options node part := by
  have hEach : ∀ {nodes values}, List.Forall₂ (Node.FitsSome registry options) nodes values →
      ∀ part ∈ values, ∃ node, Node.FitsSome registry options node part := by
    intro nodes values each part mem
    obtain ⟨node, -, fits⟩ := Production.exists_of_forall₂ each part mem
    exact ⟨node, fits⟩
  cases becomes with
  | scalar parts _ =>
      rw [parts]
      exact nofun
  | array _ each => exact hEach each
  | object _ each => exact hEach each
  | unit => exact nofun
  | tuple each => exact hEach each
  | fields _ each => exact hEach each

theorem Node.Acceptable.denoted {node : Node} {k : PublicKey}
    (acceptable : Node.Acceptable registry options node (.pubkey k)) :
    ∃ kind raw, options.denote kind raw = .ok (.pubkey k) := by
  cases acceptable with
  | extended denotes => exact ⟨_, _, denotes⟩

/-- Every public key in what a written value becomes is denoted by a literal. -/
theorem Node.FitsSome.denoted (resolved : registry.Resolved) {node : Node} {value : Value}
    {k : PublicKey} (fits : Node.FitsSome registry options node value)
    (holds : value.Holds (.pubkey k)) : ∃ kind raw, options.denote kind raw = .ok (.pubkey k) := by
  generalize hKey : Value.pubkey k = inner at holds
  induction holds generalizing node with
  | self =>
      subst hKey
      obtain ⟨type?, -, fits⟩ := fits
      cases type? with
      | none => exact Node.Acceptable.denoted fits
      | some type =>
          cases fits with
          | quoted denotes => exact ⟨_, _, denotes⟩
          | extended denotes => exact ⟨_, _, denotes⟩
          | undeclared _ acceptable => exact acceptable.denoted
  | part mem _ ih =>
      obtain ⟨form, span⟩ := node
      obtain ⟨other, hOther⟩ := (fits.becomes resolved).exists_fitsSome _ mem
      exact ih hOther hKey

end

/-- Strict checking only adds the condition on the curve: it gives a configuration exactly if
lenient checking gives the same one and every public key in it, at any depth, is a point. -/
theorem Bundle.check_strict_eq_ok_iff (registry : Registry) (bundle : Bundle) (c : Configuration) :
    bundle.check registry ⟨true⟩ = .ok c ↔
      bundle.check registry ⟨false⟩ = .ok c ∧
        ∀ k, c.toValue.Holds (.pubkey k) → k.isPoint = true := by
  rw [Bundle.check_eq_ok_iff, Bundle.check_eq_ok_iff]
  constructor
  · rintro ⟨resolved, acceptable⟩
    refine ⟨⟨resolved, ?_⟩, fun k holds => ?_⟩
    · exact Node.carries (fun _ _ _ _ => trivial) (fun denotes _ => Options.denote_lenient denotes)
        _ none _ acceptable trivial
    · obtain ⟨kind, raw, denotes⟩ := acceptable.fitsSome.denoted resolved holds
      rcases Options.denote_eq_ok denotes with ⟨_, _, h, _⟩ | ⟨_, _, h, _⟩ | ⟨_, _, h, hParse⟩
      · cases h
      · cases h
      · cases h
        exact (PublicKey.parse_strict_eq_ok_iff.1 hParse).2
  · rintro ⟨⟨resolved, acceptable⟩, onCurve⟩
    refine ⟨resolved, ?_⟩
    exact Node.carries (fun _ onCurve _ mem => Value.KeysOnCurve.part onCurve mem)
      Options.denote_strict _ none _ acceptable onCurve

end TypedConfig
