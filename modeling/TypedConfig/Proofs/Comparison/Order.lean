import TypedConfig.Proofs.Comparison.Checking
import TypedConfig.Proofs.Comparison.Values
import TypedConfig.Proofs.Printing.Printability
/-!
The order of entries carries no meaning. Documents whose entries stand in another order, at any
depth, are both accepted, with values that are in another order too, or both rejected for the same
reasons.
-/
namespace TypedConfig

theorem Arranged.perm {α : Type} {free : Prop} {as bs : List α}
    (arranged : Arranged free Eq as bs) : as.Perm bs := by
  obtain ⟨middle, hEach, hOrder⟩ := arranged
  rw [List.forall₂_eq_eq_eq] at hEach
  exact hEach ▸ hOrder.perm

/-- What can be printed has different keys, and every float of it is a number. -/
theorem Value.Printable.regular {room : Nat} {value : Value} (printable : value.Printable room) :
    value.Regular := by
  induction room generalizing value with
  | zero => exact printable.elim
  | succ room ih =>
      obtain ⟨hSpelled, hParts⟩ := printable
      refine .of_parts ?_ ?_ fun part mem => ih (hParts part mem)
      · cases value with
        | object typeName fields => exact hSpelled.2.1
        | variant enum name payload =>
            cases payload with
            | fields fields => exact hSpelled.2.2.1
            | _ => exact List.nodup_nil
        | _ => exact List.nodup_nil
      · cases value with
        | float x =>
            have hFinite : x.isFinite = true := hSpelled
            simp only [Value.NotNaN, Number.Binary64.isFinite, Number.Binary64.isNaN,
              decide_eq_true_eq, decide_eq_false_iff_not] at hFinite ⊢
            omega
        | _ => exact trivial

/-- What files are checked as has different keys, and every float of it is a number. -/
theorem Bundle.IsResolved.regular {bundle : Bundle} {registry : Registry} {options : Options}
    {c : Configuration} (resolved : bundle.IsResolved)
    (checks : bundle.check registry options = .ok c) : c.toValue.Regular :=
  (Configuration.printable_of_check checks resolved).regular

/-- Two bundles whose roots differ in the order of entries, at any depth, where each entry keeps its
places, are both accepted or both rejected. If they are accepted the values are the same up to the
order of fields. They count as the same document if the entries come from files, and in any case if
keys tell the fields of each object apart and every number is one. If they are rejected the same
diagnostics are reported. -/
theorem Bundle.check_in_any_order (registry : Registry) (options : Options) (bundle other : Bundle)
    (varies : bundle.Varies .order other) :
    (∃ c d, bundle.check registry options = .ok c ∧ other.check registry options = .ok d ∧
      c.Varies True d ∧ (bundle.IsResolved ∨ c.toValue.Regular → c.same d = true)) ∨
    ∃ ds es, bundle.check registry options = .error ds ∧
      other.check registry options = .error es ∧ ds.Perm es := by
  have hVerdict := Bundle.verdict_agrees (.refl registry) options varies
  have hSites : Arranged True (Diagnostic.Varies .order) registry.unresolved registry.unresolved :=
    .of_forall₂ (List.forall₂_same.2 fun _ _ => ⟨rfl, rfl⟩)
  have hAgrees := hVerdict.after hSites
  rw [check_eq, check_eq]
  rcases hAgrees.toExcept with ⟨c, d, hLeft, hRight, hVaries⟩ | ⟨hLeft, hRight⟩
  · refine .inl ⟨c, d, hLeft, hRight, hVaries, fun regular => hVaries.same ?_⟩
    rcases regular with hResolved | hRegular
    · exact hResolved.regular hLeft
    · exact hRegular
  · exact .inr ⟨_, _, hLeft, hRight, (hAgrees.errors.imp fun _ _ varies => varies.eq rfl).perm⟩

/-- The entries of the root stand the other way round, and so do those of an object in an array. -/
theorem Bundle.check_of_swapped_entries :
    let place : Nat → Span := fun column => ⟨"main", 1, column⟩
    let low : Entry := ⟨"low", place 12, ⟨.integer 1, place 17⟩⟩
    let high : Entry := ⟨"high", place 20, ⟨.integer 9, place 26⟩⟩
    let ranges : List Entry → Entry := fun bounds =>
      ⟨"ranges", place 1, ⟨.array [⟨.object none bounds (place 10), place 10⟩], place 9⟩⟩
    let unit : Entry := ⟨"unit", place 31, ⟨.string "cm", place 37⟩⟩
    let bundle : List Entry → Bundle := fun entries =>
      ⟨⟨"main"⟩, [⟨"main"⟩], [], ⟨entries, place 1⟩⟩
    let registry : Registry := ⟨[], List.nodup_nil⟩
    (bundle [ranges [low, high], unit]).Varies .order (bundle [unit, ranges [high, low]]) ∧
      ∃ c d, (bundle [ranges [low, high], unit]).check registry .default = .ok c ∧
        (bundle [unit, ranges [high, low]]).check registry .default = .ok d ∧
        c.Varies True d ∧ c.same d = true := by
  intro place low high ranges unit bundle registry
  have hSelf : ∀ (key : String) (n : Int64) (s s' : Span),
      Entry.Varies .order ⟨key, s, ⟨.integer n, s'⟩⟩ ⟨key, s, ⟨.integer n, s'⟩⟩ :=
    fun _ _ _ _ => .intro rfl (.scalar trivial rfl)
  have hBounds : Node.Varies .order ⟨.object none [low, high] (place 10), place 10⟩
      ⟨.object none [high, low] (place 10), place 10⟩ :=
    .object (by simp) (.cons (hSelf ..) (.cons (hSelf ..) .nil)) (.inr ⟨trivial, .swap ..⟩) rfl rfl
  have hVaries : (bundle [ranges [low, high], unit]).Varies .order
      (bundle [unit, ranges [high, low]]) :=
    ⟨[ranges [high, low], unit],
      .cons (.intro rfl (.array (.cons hBounds .nil) rfl))
        (.cons (.intro rfl (.scalar trivial rfl)) .nil),
      .inr ⟨trivial, .swap ..⟩⟩
  refine ⟨hVaries, ?_⟩
  have hAccepts : (bundle [ranges [low, high], unit]).check registry .default =
      .ok ⟨[("ranges", .array [.object none [("low", .integer 1), ("high", .integer 9)]]),
        ("unit", .string "cm")]⟩ := by cbv
  have hInteger : ∀ n : Int64, (Value.integer n).Regular := fun n =>
    .of_parts List.nodup_nil trivial (List.forall_mem_nil _)
  have hRegular : Value.Regular (.object none
      [("ranges", .array [.object none [("low", .integer 1), ("high", .integer 9)]]),
        ("unit", .string "cm")]) := by
    refine .of_parts (by decide) trivial
      (List.forall_mem_cons.2 ⟨?_, List.forall_mem_singleton.2 ?_⟩)
    · refine .of_parts List.nodup_nil trivial (List.forall_mem_singleton.2 ?_)
      exact .of_parts (by decide) trivial
        (List.forall_mem_cons.2 ⟨hInteger 1, List.forall_mem_singleton.2 (hInteger 9)⟩)
    · exact .of_parts List.nodup_nil trivial (List.forall_mem_nil _)
  rcases check_in_any_order registry .default _ _ hVaries with
    ⟨c, d, hLeft, hRight, hSame, hCounts⟩ | ⟨ds, es, hError, -⟩
  · rw [hAccepts] at hLeft
    cases hLeft
    exact ⟨_, d, hAccepts, hRight, hSame, hCounts (.inr hRegular)⟩
  · rw [hAccepts] at hError
    cases hError

end TypedConfig
