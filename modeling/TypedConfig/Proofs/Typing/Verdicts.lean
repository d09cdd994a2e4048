import Mathlib.Data.List.Forall2
import TypedConfig.Typing.Verdict
/-!
How verdicts are put together: a verdict on a whole accepts exactly if the verdicts on its parts do.
A verdict is settled if it either has a value or reports something; that is kept, too.
-/
namespace TypedConfig.Verdict

variable {α β γ : Type}

@[simp]
theorem accept_inj {a b : α} : accept a = accept b ↔ a = b := by
  simp [accept]

@[simp]
theorem refuse_ne_accept {d : Diagnostic} {a : α} : refuse d ≠ accept a := by
  simp [refuse, accept]

/-- What is accepted is what a relation allows, if that is one thing only. -/
theorem accept_eq_iff_of_only {R : α → Prop} {a b : α} (holds : R a) (only : ∀ c, R c → c = a) :
    accept a = accept b ↔ R b := by
  rw [accept_inj]
  exact ⟨fun same => same ▸ holds, fun other => (only b other).symm⟩

theorem eq_accept_iff {v : Verdict α} {a : α} : v = accept a ↔ v.errors = [] ∧ v.value? = some a := by
  obtain ⟨errors, value?⟩ := v
  simp [accept]

@[simp]
theorem map_eq_accept_iff {f : α → β} {v : Verdict α} {b : β} :
    v.map f = accept b ↔ ∃ a, v = accept a ∧ f a = b := by
  simp only [eq_accept_iff, map, Option.map_eq_some_iff]
  constructor
  · rintro ⟨hErrors, a, hValue, rfl⟩
    exact ⟨a, ⟨hErrors, hValue⟩, rfl⟩
  · rintro ⟨a, ⟨hErrors, hValue⟩, rfl⟩
    exact ⟨hErrors, a, hValue, rfl⟩

@[simp]
theorem after_eq_accept_iff {reports : List Diagnostic} {v : Verdict α} {a : α} :
    v.after reports = accept a ↔ reports = [] ∧ v = accept a := by
  cases reports with
  | nil => simp [eq_accept_iff, after]
  | cons d reports => simp [eq_accept_iff, after]

theorem both_eq_accept_iff {f : α → β → γ} {v : Verdict α} {w : Verdict β} {c : γ} :
    both f v w = accept c ↔ ∃ a b, v = accept a ∧ w = accept b ∧ f a b = c := by
  simp only [eq_accept_iff, both, List.append_eq_nil_iff, Option.bind_eq_some_iff,
    Option.map_eq_some_iff]
  constructor
  · rintro ⟨⟨hV, hW⟩, a, hA, b, hB, rfl⟩
    exact ⟨a, b, ⟨hV, hA⟩, ⟨hW, hB⟩, rfl⟩
  · rintro ⟨a, b, ⟨hV, hA⟩, ⟨hW, hB⟩, rfl⟩
    exact ⟨⟨hV, hW⟩, a, hA, b, hB, rfl⟩

/-- The verdict on a list accepts if that on each part does. -/
theorem all_eq_accept_iff {vs : List (Verdict α)} {as : List α} :
    all vs = accept as ↔ List.Forall₂ (fun v a => v = accept a) vs as := by
  induction vs generalizing as with
  | nil => simp [all, eq_comm]
  | cons v vs ih =>
      rw [all, both_eq_accept_iff]
      constructor
      · rintro ⟨a, rest, hV, hVs, rfl⟩
        exact .cons hV (ih.1 hVs)
      · intro each
        cases each with
        | cons hV hVs => exact ⟨_, _, hV, ih.2 hVs, rfl⟩

theorem toExcept_eq_ok_iff {v : Verdict α} {a : α} : v.toExcept = .ok a ↔ v = accept a := by
  obtain ⟨errors, value?⟩ := v
  cases value? with
  | none => simp [toExcept, accept]
  | some b => cases errors <;> simp [toExcept, accept]

/-! ### Settled verdicts -/

/-- There is a value exactly if nothing is reported. -/
def Settled (v : Verdict α) : Prop := v.value?.isSome = true ↔ v.errors = []

namespace Settled

theorem accept (a : α) : Settled (accept a) := by
  simp [Settled, Verdict.accept]

theorem refuse (d : Diagnostic) : Settled (refuse d : Verdict α) := by
  simp [Settled, Verdict.refuse]

theorem map {v : Verdict α} (f : α → β) (settled : v.Settled) : (v.map f).Settled := by
  simpa [Settled, Verdict.map] using settled

theorem after {v : Verdict α} (reports : List Diagnostic) (settled : v.Settled) :
    (v.after reports).Settled := by
  cases reports with
  | nil => simpa [Settled, Verdict.after] using settled
  | cons d reports => simp [Settled, Verdict.after]

theorem both {v : Verdict α} {w : Verdict β} (f : α → β → γ) (left : v.Settled)
    (right : w.Settled) : (both f v w).Settled := by
  obtain ⟨errors, value?⟩ := v
  obtain ⟨others, other?⟩ := w
  cases value? <;> cases other? <;> simp_all [Settled, Verdict.both]

theorem all {vs : List (Verdict α)} (each : ∀ v ∈ vs, Settled v) : (all vs).Settled := by
  induction vs with
  | nil => exact accept []
  | cons v vs ih =>
      obtain ⟨hV, hVs⟩ := List.forall_mem_cons.1 each
      exact hV.both List.cons (ih hVs)

/-- A settled verdict has a value exactly if it accepts it. -/
theorem value?_eq_some_iff {v : Verdict α} {a : α} (settled : v.Settled) :
    v.value? = some a ↔ v = Verdict.accept a := by
  rw [eq_accept_iff]
  exact ⟨fun h => ⟨settled.1 (by simp [h]), h⟩, And.right⟩

end Settled

end TypedConfig.Verdict
