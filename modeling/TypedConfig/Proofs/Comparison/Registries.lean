import TypedConfig.Proofs.Comparison.Checking
import TypedConfig.Proofs.Comparison.Values
import TypedConfig.Proofs.Typing.Exactness
/-!
What a verdict depends on in a registry: the declarations of the names that a document writes, and
of those that these refer to. More declarations do no harm to a document that is accepted, since it
writes declared names only, and the order of declarations does not matter.
-/
namespace TypedConfig

variable {registry other : Registry} {options : Options} {names : String → Prop}

/-! ### Names that a document writes -/

theorem Entry.Varies.self {entry : Entry}
    (inner : Node.Varies (.declarations names) entry.value entry.value) :
    Entry.Varies (.declarations names) entry entry := by
  obtain ⟨key, keySpan, value⟩ := entry
  exact .intro rfl inner

/-- A written value varies from itself if all names that it writes are declared alike. -/
theorem Node.Within.varies {node : Node} (within : node.Within names) :
    Node.Varies (.declarations names) node node := by
  induction node using Node.induct with
  | step form span ih =>
      obtain ⟨own, parts⟩ := within
      have hParts : ∀ part ∈ form.parts, Node.Varies (.declarations names) part part :=
        fun part mem => ih part mem (parts part mem)
      have hEntries : ∀ entries : List Entry, entries.map Entry.value ⊆ form.parts →
          List.Forall₂ (Entry.Varies (.declarations names)) entries entries :=
        fun entries within => List.forall₂_same.2 fun entry mem =>
          .self (hParts _ (within (List.mem_map_of_mem mem)))
      cases form with
      | array items => exact .array (List.forall₂_same.2 hParts) rfl
      | object typeName entries opened =>
          exact .object (fun name hName => own name (Option.mem_toList.2 hName))
            (hEntries entries (List.Subset.refl _)) (.inl rfl) rfl rfl
      | variant enum name payload =>
          refine .variant (own enum List.mem_cons_self) ?_ rfl
          cases payload with
          | unit => exact .unit
          | tuple items => exact .tuple (List.forall₂_same.2 hParts)
          | fields entries => exact .fields (hEntries entries (List.Subset.refl _)) (.inl rfl)
      | _ => exact .scalar trivial rfl

/-- Where any name may be written, every value is as told. -/
theorem Node.within_any (node : Node) : node.Within fun _ => True := by
  induction node using Node.induct with
  | step form span ih => exact .intro (fun _ _ => trivial) ih

theorem Bundle.Within.varies {bundle : Bundle} (within : bundle.Within names) :
    bundle.Varies (.declarations names) bundle :=
  .of_forall₂ (List.forall₂_same.2 fun entry mem => .self (within entry mem).varies)

/-- Verdicts that agree where only declarations differ are equal. -/
theorem Verdict.Agrees.eq {v w : Verdict Configuration}
    (agrees : Agrees (.declarations names) (Configuration.Varies False) v w) : v = w := by
  obtain ⟨errors, value?⟩ := v
  obtain ⟨others, other?⟩ := w
  have hErrors : errors = others := by
    rw [← List.forall₂_eq_eq_eq]
    exact (agrees.errors.forall₂ not_false).imp fun _ _ varies => varies.eq rfl
  have hValue : value? = other? := by
    cases agrees.value? with
    | none => rfl
    | some varies => rw [varies.eq]
  rw [hErrors, hValue]

/-- The verdict on a document depends only on what the registry says of the names in question. -/
theorem Bundle.verdict_eq (alike : Registry.AgreesOn names registry other) (options : Options)
    {bundle : Bundle} (within : bundle.Within names) :
    bundle.verdict registry options = bundle.verdict other options :=
  (verdict_agrees (t := .declarations names) alike options within.varies).eq

/-! ### Names that an accepted document writes -/

/-- A written value fits some position. -/
def Node.FitsAny (registry : Registry) (options : Options) (node : Node) : Prop :=
  ∃ type? value, Node.Fits registry options type? node value

/-- The name of a declaration. -/
def Registry.IsDeclared (registry : Registry) (name : String) : Prop :=
  ∃ d ∈ registry.declarations, d.name = name

theorem Registry.isDeclared_of_get? {name : String} {d : Declaration}
    (found : registry.get? name = some d) : registry.IsDeclared name :=
  ⟨d, List.mem_of_find?_eq_some found, by simpa using List.find?_some found⟩

theorem exists_zip_of_mem {α β : Type} {as : List α} {bs : List β} {a : α}
    (lengths : as.length = bs.length) (mem : a ∈ as) : ∃ b, (a, b) ∈ as.zip bs := by
  rw [← List.map_fst_zip (Nat.le_of_eq lengths)] at mem
  obtain ⟨⟨a, b⟩, hPair, rfl⟩ := List.mem_map.1 mem
  exact ⟨b, hPair⟩

theorem Entry.Fill.parts_fit {fields : List Field} {entries : List Entry}
    {values : List (String × Value)} (fill : Entry.Fill registry options fields entries values) :
    ∀ part ∈ entries.map Entry.value, part.FitsAny registry options := by
  obtain ⟨-, declared, keys, each⟩ := fill
  intro part mem
  obtain ⟨entry, hEntry, rfl⟩ := List.mem_map.1 mem
  obtain ⟨field, hField⟩ := declared entry hEntry
  obtain ⟨value, hPair⟩ := exists_zip_of_mem (Entry.keys_eq_iff.1 keys).1 hEntry
  have hTakes := each entry value field hPair hField
  generalize entry.value = node, value.2 = v at hTakes
  cases hTakes with
  | typed typed => exact ⟨some _, _, typed⟩
  | null => exact ⟨none, .null, Node.Acceptable.null⟩

theorem Payload.HasShape.parts_fit {shape : Payload Slot Field} {payload : Payload Node Entry}
    {value : Payload Value (String × Value)}
    (carried : Payload.HasShape registry options shape payload value) :
    ∀ part ∈ payload.parts, part.FitsAny registry options := by
  cases carried with
  | unit => exact List.forall_mem_nil _
  | tuple arity lengths each =>
      intro part mem
      obtain ⟨value, hPair⟩ := exists_zip_of_mem lengths mem
      obtain ⟨slot, -, hSlot⟩ := Slot.exists_of_zip arity hPair
      exact ⟨some slot.type, value, each slot part value hSlot⟩
  | fields block => exact block.parts_fit

theorem Node.Acceptable.inside {form : Form} {span : Span} {value : Value}
    (acceptable : Node.Acceptable registry options ⟨form, span⟩ value) :
    (∀ name ∈ form.names, registry.IsDeclared name) ∧
      ∀ part ∈ form.parts, part.FitsAny registry options := by
  cases acceptable with
  | array lengths each =>
      refine ⟨List.forall_mem_nil _, fun part mem => ?_⟩
      obtain ⟨value, hPair⟩ := exists_zip_of_mem lengths mem
      exact ⟨none, value, each part value hPair⟩
  | object keys each =>
      refine ⟨List.forall_mem_nil _, fun part mem => ?_⟩
      obtain ⟨entry, hEntry, rfl⟩ := List.mem_map.1 mem
      obtain ⟨value, hPair⟩ := exists_zip_of_mem (Entry.keys_eq_iff.1 keys).1 hEntry
      exact ⟨none, value.2, each entry value hPair⟩
  | record found body block =>
      exact ⟨by simpa [Form.names] using Registry.isDeclared_of_get? found, block.parts_fit⟩
  | choice found body alternative carried =>
      exact ⟨by simpa [Form.names] using Registry.isDeclared_of_get? found, carried.parts_fit⟩
  | _ => exact ⟨List.forall_mem_nil _, List.forall_mem_nil _⟩

theorem Node.FitsAny.inside {form : Form} {span : Span}
    (fits : Node.FitsAny registry options ⟨form, span⟩) :
    (∀ name ∈ form.names, registry.IsDeclared name) ∧
      ∀ part ∈ form.parts, part.FitsAny registry options := by
  obtain ⟨type?, value, fits⟩ := fits
  cases type? with
  | none => exact Node.Acceptable.inside fits
  | some type =>
      cases fits with
      | array lengths each =>
          refine ⟨List.forall_mem_nil _, fun part mem => ?_⟩
          obtain ⟨value, hPair⟩ := exists_zip_of_mem lengths mem
          exact ⟨some _, value, each part value hPair⟩
      | record found body label block =>
          refine ⟨fun name hName => ?_, block.parts_fit⟩
          rw [label name (Option.mem_toList.1 hName)]
          exact Registry.isDeclared_of_get? found
      | choice found body alternative carried =>
          exact ⟨by simpa [Form.names] using Registry.isDeclared_of_get? found, carried.parts_fit⟩
      | undeclared unknown acceptable => exact acceptable.inside
      | _ => exact ⟨List.forall_mem_nil _, List.forall_mem_nil _⟩

/-- What fits some position writes declared names only. -/
theorem Node.FitsAny.within {node : Node} (fits : node.FitsAny registry options) :
    node.Within registry.IsDeclared := by
  induction node using Node.induct with
  | step form span ih =>
      obtain ⟨hNames, hParts⟩ := fits.inside
      exact .intro hNames fun part mem => ih part mem (hParts part mem)

/-! ### Registries with the same declarations -/

namespace Registry

theorem get?_eq_some_iff {name : String} {d : Declaration} :
    registry.get? name = some d ↔ d ∈ registry.declarations ∧ d.name = name := by
  constructor
  · intro found
    exact ⟨List.mem_of_find?_eq_some found, by simpa using List.find?_some found⟩
  · rintro ⟨mem, rfl⟩
    cases hFound : registry.get? d.name with
    | none =>
        have hApart := List.find?_eq_none.1 hFound d mem
        simp at hApart
    | some found =>
        have hName : found.name = d.name := by simpa using List.find?_some hFound
        rw [List.inj_on_of_nodup_map registry.nodup (List.mem_of_find?_eq_some hFound) mem hName]

/-- A registry agrees with every one that has its declarations, on the declared names. -/
theorem agreesOn_of_subset (resolved : registry.Resolved)
    (subset : registry.declarations ⊆ other.declarations) :
    AgreesOn registry.IsDeclared registry other := by
  constructor
  · rintro name ⟨d, mem, hName⟩
    rw [get?_eq_some_iff.2 ⟨mem, hName⟩, get?_eq_some_iff.2 ⟨subset mem, hName⟩]
  · intro name d _ found type hType
    exact resolved d (get?_eq_some_iff.1 found).1 type hType

variable (perm : registry.declarations.Perm other.declarations)

include perm

theorem get?_eq_of_perm : registry.get? = other.get? := by
  funext name
  refine Option.ext fun d => ?_
  rw [get?_eq_some_iff, get?_eq_some_iff, perm.mem_iff]

theorem unresolved_perm : registry.unresolved.Perm other.unresolved := by
  have hContains : registry.contains = other.contains := by
    funext name
    rw [contains, contains, get?_eq_of_perm perm]
  rw [unresolved, unresolved, unresolvedInBody_eq hContains]
  exact perm.flatMap_right _

end Registry

/-! ### Checking against another registry -/

theorem Verdict.toExcept_cases {α : Type} (v : Verdict α) :
    (∃ a, v.toExcept = .ok a) ∨ v.toExcept = .error v.errors := by
  obtain ⟨errors, value?⟩ := v
  cases value? with
  | none => exact .inr rfl
  | some a =>
      cases errors with
      | nil => exact .inl ⟨a, rfl⟩
      | cons d ds => exact .inr rfl

/-- The declarations that a document names are all that matters of a registry. Registries that agree
on some names, and on those that the declarations of these refer to, give the same verdict on the
root of every document that writes no others, and so the outcomes differ only in what is reported of
the declarations. A document that is accepted stays so, with the same result, when declarations are
added, provided that the registry has no reference to a name that is not declared. When the
declarations are put in another order, the result is the same, or the same is reported of the
declarations in another order and of the document in the same order. -/
theorem Bundle.check_against_other_registry (options : Options) (bundle : Bundle)
    (registry other : Registry) :
    (∀ names, Registry.AgreesOn names registry other → bundle.Within names →
      ∃ v : Verdict Configuration,
        bundle.check registry options = (v.after registry.unresolved).toExcept ∧
        bundle.check other options = (v.after other.unresolved).toExcept) ∧
    (∀ c, registry.declarations ⊆ other.declarations → other.unresolved = [] →
      bundle.check registry options = .ok c → bundle.check other options = .ok c) ∧
    (registry.declarations.Perm other.declarations →
      (∃ c, bundle.check registry options = .ok c ∧ bundle.check other options = .ok c) ∨
      ∃ sites sites' reports, bundle.check registry options = .error (sites ++ reports) ∧
        bundle.check other options = .error (sites' ++ reports) ∧
        sites = registry.unresolved ∧ sites' = other.unresolved ∧ sites.Perm sites') := by
  refine ⟨fun names alike within => ?_, fun c subset resolved accepts => ?_, fun perm => ?_⟩
  · exact ⟨bundle.verdict registry options, rfl, by rw [check_eq, verdict_eq alike options within]⟩
  · obtain ⟨hResolved, hRoot⟩ := Bundle.check_eq_ok_iff.1 accepts
    have hWithin : bundle.Within registry.IsDeclared := fun entry mem =>
      (hRoot.inside.2 entry.value (List.mem_map_of_mem mem)).within
    have hSites := Registry.unresolved_eq_nil_iff.2 hResolved
    have hVerdict := verdict_eq (Registry.agreesOn_of_subset hResolved subset) options hWithin
    rw [check_eq, hSites] at accepts
    rw [check_eq, resolved, ← hVerdict, accepts]
  · have hAlike : Registry.AgreesOn (fun _ => True) registry other :=
      ⟨fun name _ => by rw [Registry.get?_eq_of_perm perm], fun _ _ _ _ _ _ _ _ => trivial⟩
    have hWithin : bundle.Within fun _ => True := fun entry _ => entry.value.within_any
    have hVerdict := verdict_eq hAlike options hWithin
    have hPerm := Registry.unresolved_perm perm
    have hNil : registry.unresolved = [] ↔ other.unresolved = [] := by
      rw [← List.length_eq_zero_iff, ← List.length_eq_zero_iff, hPerm.length_eq]
    rw [check_eq, check_eq, ← hVerdict]
    generalize bundle.verdict registry options = v
    have hOk : ∀ c, (v.after registry.unresolved).toExcept = .ok c ↔
        (v.after other.unresolved).toExcept = .ok c := fun c => by
      rw [Verdict.toExcept_eq_ok_iff, Verdict.toExcept_eq_ok_iff, Verdict.after_eq_accept_iff,
        Verdict.after_eq_accept_iff, hNil]
    rcases (v.after registry.unresolved).toExcept_cases with ⟨c, hLeft⟩ | hLeft
    · exact .inl ⟨c, hLeft, (hOk c).1 hLeft⟩
    · rcases (v.after other.unresolved).toExcept_cases with ⟨c, hRight⟩ | hRight
      · exact .inl ⟨c, (hOk c).2 hRight, hRight⟩
      · exact .inr ⟨_, _, v.errors, hLeft, hRight, rfl, rfl, hPerm⟩

/-- An enum is declared in front of the type that a document uses. -/
theorem Bundle.check_against_more_declarations :
    let place : Nat → Nat → Span := fun line column => ⟨"main", line, column⟩
    let mode : Declaration := ⟨"Mode", .choice [⟨"Fast", .unit, place 1 13⟩], place 1 1⟩
    let server : Declaration :=
      ⟨"Server", .record [⟨"port", .integer, false, place 2 16⟩], place 2 1⟩
    let written : Node := ⟨.object (some "Server")
      [⟨"port", place 3 22, ⟨.integer 80, place 3 28⟩⟩] (place 3 20), place 3 13⟩
    let bundle : Bundle := ⟨⟨"main"⟩, [⟨"main"⟩], [], ⟨[⟨"server", place 3 5, written⟩], place 3 3⟩⟩
    let registry : Registry := ⟨[server], List.nodup_singleton _⟩
    let other : Registry := ⟨[mode, server], by decide⟩
    registry.declarations ⊆ other.declarations ∧ other.unresolved = [] ∧
      ∃ c, bundle.check registry .default = .ok c ∧ bundle.check other .default = .ok c := by
  intro place mode server written bundle registry other
  have hSubset : registry.declarations ⊆ other.declarations := List.subset_cons_self _ _
  have hAccepts : bundle.check registry .default =
      .ok ⟨[("server", .object (some "Server") [("port", .integer 80)])]⟩ := by cbv
  exact ⟨hSubset, rfl, _, hAccepts,
    (check_against_other_registry .default bundle registry other).2.1 _ hSubset rfl hAccepts⟩

end TypedConfig
