import TypedConfig.Proofs.Typing
import TypedConfig.Proofs.Typing.Verdicts
/-!
Arrays of undeclared positions are accepted exactly if their values are homogeneous. The checker
fixes the class by the first item that has one and compares each later item with it.
-/
namespace TypedConfig

theorem Value.ofClass_iff {c : ItemClass} {value : Value} :
    Value.OfClass c value ↔ ∀ found ∈ value.itemClass?, found = c := by
  constructor
  · intro h
    cases h with
    | other plain => cases value <;> simp_all [Value.kind, Value.itemClass?]
    | _ => simp [Value.itemClass?]
  · intro h
    cases value with
    | null => exact .null
    | integer n =>
        obtain rfl : .number = c := h _ rfl
        exact .integer
    | float x =>
        obtain rfl : .number = c := h _ rfl
        exact .float
    | variant enum name payload =>
        obtain rfl : .enum enum = c := h _ rfl
        exact .variant
    | _ =>
        obtain rfl := h _ rfl
        exact .other (by simp [Value.kind])

namespace ItemClass

theorem faults_eq_nil_iff (fixed : Option ItemClass) (value : Value) (span : Span) :
    faults fixed (some value) span = [] ↔
      ∀ wanted ∈ fixed, ∀ found ∈ value.itemClass?, found = wanted := by
  cases fixed with
  | none => simp [faults]
  | some wanted =>
      cases hClass : value.itemClass? with
      | none => simp [faults, hClass]
      | some found => simp [faults, hClass]

/-- One item is accepted if its verdict accepts a value of the class that is already fixed. -/
theorem judged_eq_accept_iff (fixed : Option ItemClass) (span : Span) {v : Verdict Value}
    {value : Value} :
    (⟨v.errors ++ faults fixed v.value? span,
        if (faults fixed v.value? span).isEmpty then v.value? else none⟩ : Verdict Value) =
          .accept value ↔
      v = .accept value ∧ ∀ wanted ∈ fixed, ∀ found ∈ value.itemClass?, found = wanted := by
  rw [← faults_eq_nil_iff fixed value span]
  simp only [Verdict.eq_accept_iff, List.append_eq_nil_iff, List.isEmpty_iff]
  constructor
  · rintro ⟨⟨hErrors, hFaults⟩, hValue⟩
    rw [if_pos hFaults] at hValue
    exact ⟨⟨hErrors, hValue⟩, hValue ▸ hFaults⟩
  · rintro ⟨⟨hErrors, hValue⟩, hFaults⟩
    rw [hValue, if_pos hFaults]
    exact ⟨⟨hErrors, hFaults⟩, rfl⟩

/-- The verdicts on the items of an array are put together if all accept and one class holds all
values and is the one that is already fixed. -/
theorem allFrom_eq_accept_iff {fixed : Option ItemClass} {items : List (Span × Verdict Value)}
    {values : List Value} :
    allFrom fixed items = .accept values ↔
      List.Forall₂ (fun item value => item.2 = .accept value) items values ∧
        ∃ c, (∀ wanted ∈ fixed, wanted = c) ∧ ∀ value ∈ values, Value.OfClass c value := by
  induction items generalizing fixed values with
  | nil =>
      rw [allFrom]
      constructor
      · intro h
        obtain rfl : [] = values := Verdict.accept_inj.1 h
        refine ⟨.nil, fixed.getD .number, ?_, by simp⟩
        rintro wanted hWanted
        rw [Option.mem_def.1 hWanted, Option.getD_some]
      · rintro ⟨each, -⟩
        cases each
        rfl
  | cons item items ih =>
      obtain ⟨span, v⟩ := item
      rw [allFrom, Verdict.both_eq_accept_iff]
      constructor
      · rintro ⟨value, rest, hItem, hRest, rfl⟩
        rw [hItem] at hRest
        obtain ⟨hValue, hFixed⟩ := (judged_eq_accept_iff fixed span).1 hItem
        obtain ⟨each, c, hWanted, hClass⟩ := ih.1 hRest
        refine ⟨.cons hValue each, c, fun wanted h => ?_, List.forall_mem_cons.2 ⟨?_, hClass⟩⟩
        · exact hWanted wanted (by simp [Option.mem_def.1 h])
        · rw [Value.ofClass_iff]
          intro found hFound
          cases fixed with
          | none => exact hWanted found hFound
          | some wanted =>
              rw [hFixed wanted rfl found hFound]
              exact hWanted wanted rfl
      · rintro ⟨each, c, hWanted, hClass⟩
        cases each with
        | @cons _ value _ rest hValue hRest =>
            obtain ⟨hFirst, hOthers⟩ := List.forall_mem_cons.1 hClass
            rw [Value.ofClass_iff] at hFirst
            have hItem := (judged_eq_accept_iff fixed span).2
              ⟨hValue, fun wanted h found hFound =>
                (hFirst found hFound).trans (hWanted wanted h).symm⟩
            refine ⟨value, rest, hItem, ?_, rfl⟩
            rw [hItem]
            refine ih.2 ⟨hRest, c, fun wanted h => ?_, hOthers⟩
            cases fixed with
            | none => exact hFirst wanted h
            | some first => exact hWanted wanted h

theorem allFrom_settled {fixed : Option ItemClass} {items : List (Span × Verdict Value)}
    (each : ∀ item ∈ items, item.2.Settled) : (allFrom fixed items).Settled := by
  induction items generalizing fixed with
  | nil => exact .accept []
  | cons item items ih =>
      obtain ⟨span, v⟩ := item
      obtain ⟨hItem, hItems⟩ := List.forall_mem_cons.1 each
      rw [allFrom]
      refine Verdict.Settled.both List.cons ?_ (ih hItems)
      cases hFaults : faults fixed v.value? span with
      | nil => simpa [Verdict.Settled] using hItem
      | cons d reports => simp [Verdict.Settled]

end ItemClass

end TypedConfig
