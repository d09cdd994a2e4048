import Mathlib.Data.List.Perm.Basic
import TypedConfig.Proofs.Comparison
import TypedConfig.Proofs.Typing.Reports
/-!
How verdicts on two documents are put together: if those on the parts agree, so do those on the
whole. The parts may stand in another order if entries may; then so do the values and the reports.
-/
namespace TypedConfig

variable {α β γ δ : Type} {free : Prop} {R : α → β → Prop} {S : γ → δ → Prop}

/-! ### Lists in another order -/

theorem map_eq_map_iff_forall₂ {α β : Type} {f : α → β} {as bs : List α} :
    as.map f = bs.map f ↔ List.Forall₂ (fun a b => f a = f b) as bs := by
  rw [← List.forall₂_eq_eq_eq, List.forall₂_map_left_iff, List.forall₂_map_right_iff]

theorem Shuffled.perm {as bs : List α} (shuffled : Shuffled free as bs) : as.Perm bs := by
  rcases shuffled with rfl | ⟨-, hPerm⟩
  · exact .rfl
  · exact hPerm

theorem Shuffled.flatMap {as bs : List α} (f : α → List β) (shuffled : Shuffled free as bs) :
    Shuffled free (as.flatMap f) (bs.flatMap f) := by
  rcases shuffled with rfl | ⟨hFree, hPerm⟩
  · exact .inl rfl
  · exact .inr ⟨hFree, hPerm.flatMap_right f⟩

theorem Shuffled.map {as bs : List α} (f : α → β) (shuffled : Shuffled free as bs) :
    Shuffled free (as.map f) (bs.map f) := by
  rcases shuffled with rfl | ⟨hFree, hPerm⟩
  · exact .inl rfl
  · exact .inr ⟨hFree, hPerm.map f⟩

theorem Shuffled.append {as bs cs ds : List α} (front : Shuffled free as bs)
    (back : Shuffled free cs ds) : Shuffled free (as ++ cs) (bs ++ ds) := by
  rcases front with rfl | ⟨hFree, hPerm⟩
  · rcases back with rfl | ⟨hFree, hPerm⟩
    · exact .inl rfl
    · exact .inr ⟨hFree, hPerm.append_left as⟩
  · exact .inr ⟨hFree, hPerm.append back.perm⟩

theorem Shuffled.trans {as bs cs : List α} (first : Shuffled free as bs)
    (second : Shuffled free bs cs) : Shuffled free as cs := by
  rcases first with rfl | ⟨hFree, hPerm⟩
  · exact second
  · exact .inr ⟨hFree, hPerm.trans second.perm⟩

namespace Arranged

theorem of_forall₂ {as : List α} {bs : List β} (each : List.Forall₂ R as bs) :
    Arranged free R as bs :=
  ⟨bs, each, .inl rfl⟩

theorem nil : Arranged free R [] [] := of_forall₂ .nil

theorem one {a : α} {b : β} (related : R a b) : Arranged free R [a] [b] :=
  of_forall₂ (.cons related .nil)

theorem shuffle {as : List α} {bs cs : List β} (arranged : Arranged free R as bs)
    (shuffled : Shuffled free bs cs) : Arranged free R as cs := by
  obtain ⟨middle, hEach, hOrder⟩ := arranged
  exact ⟨middle, hEach, hOrder.trans shuffled⟩

theorem append {as cs : List α} {bs ds : List β} (front : Arranged free R as bs)
    (back : Arranged free R cs ds) : Arranged free R (as ++ cs) (bs ++ ds) := by
  obtain ⟨left, hLeft, hLeftOrder⟩ := front
  obtain ⟨right, hRight, hRightOrder⟩ := back
  exact ⟨left ++ right, List.rel_append hLeft hRight, hLeftOrder.append hRightOrder⟩

theorem imp {S : α → β → Prop} {as : List α} {bs : List β} (arranged : Arranged free R as bs)
    (weaker : ∀ a b, R a b → S a b) : Arranged free S as bs := by
  obtain ⟨middle, hEach, hOrder⟩ := arranged
  exact ⟨middle, hEach.imp weaker, hOrder⟩

theorem forall₂ {as : List α} {bs : List β} (arranged : Arranged free R as bs)
    (fixed : ¬ free) : List.Forall₂ R as bs := by
  obtain ⟨middle, hEach, rfl | ⟨hFree, -⟩⟩ := arranged
  · exact hEach
  · exact absurd hFree fixed

theorem eq_nil_iff {as : List α} {bs : List β} (arranged : Arranged free R as bs) :
    as = [] ↔ bs = [] := by
  obtain ⟨middle, hEach, hOrder⟩ := arranged
  rw [← List.length_eq_zero_iff, ← List.length_eq_zero_iff, hEach.length_eq, hOrder.perm.length_eq]

end Arranged

/-! ### Verdicts that agree -/

/-- Where every place stays, only equal diagnostics vary. -/
theorem Diagnostic.Varies.eq {t : Tolerance} (places : t.places = Eq) {d e : Diagnostic}
    (varies : d.Varies t e) : d = e := by
  obtain ⟨cause, span⟩ := d
  obtain ⟨cause', span'⟩ := e
  obtain ⟨hCause, hSpan⟩ := varies
  rw [places] at hSpan
  exact congrArg₂ Diagnostic.mk hCause hSpan

theorem rel_imp {R S : α → β → Prop} {a? : Option α} {b? : Option β}
    (weaker : ∀ a b, R a b → S a b) (related : Option.Rel R a? b?) : Option.Rel S a? b? := by
  cases related with
  | none => exact .none
  | some related => exact .some (weaker _ _ related)

theorem rel_of_map_eq {f : α → γ} {a? b? : Option α} (same : a?.map f = b?.map f) :
    Option.Rel (fun a b => a ∈ a? ∧ f a = f b) a? b? := by
  cases a? with
  | none =>
      rw [Option.map_eq_none_iff.1 same.symm]
      exact .none
  | some a =>
      obtain ⟨b, rfl, hSame⟩ := Option.map_eq_some_iff.1 same.symm
      exact .some ⟨rfl, hSame.symm⟩

theorem rel_comp {R : α → β → Prop} {S : β → γ → Prop} {T : α → γ → Prop} {a? : Option α}
    {b? : Option β} {c? : Option γ} (both : ∀ a b c, R a b → S b c → T a c)
    (first : Option.Rel R a? b?) (second : Option.Rel S b? c?) : Option.Rel T a? c? := by
  cases first with
  | none =>
      cases second with
      | none => exact .none
  | some hFirst =>
      cases second with
      | some hSecond => exact .some (both _ _ _ hFirst hSecond)

namespace Verdict.Agrees

variable {t : Tolerance}

theorem accept {a : α} {b : β} (related : R a b) : Agrees t R (accept a) (accept b) :=
  ⟨.nil, .some related⟩

theorem refuse {d e : Diagnostic} (varies : d.Varies t e) :
    Agrees t R (refuse d : Verdict α) (refuse e : Verdict β) :=
  ⟨.one varies, .none⟩

theorem map {f : α → γ} {g : β → δ} {v : Verdict α} {w : Verdict β} (agrees : Agrees t R v w)
    (related : ∀ a b, R a b → S (f a) (g b)) : Agrees t S (v.map f) (w.map g) := by
  obtain ⟨errors, value?⟩ := v
  obtain ⟨others, other?⟩ := w
  obtain ⟨hErrors, hValue⟩ := agrees
  refine ⟨hErrors, ?_⟩
  cases hValue with
  | some h => exact .some (related _ _ h)
  | none => exact .none

theorem after {ds es : List Diagnostic} {v : Verdict α} {w : Verdict β}
    (reports : Arranged t.free (Diagnostic.Varies t) ds es) (agrees : Agrees t R v w) :
    Agrees t R (v.after ds) (w.after es) := by
  refine ⟨reports.append agrees.errors, ?_⟩
  cases ds with
  | nil =>
      obtain rfl := reports.eq_nil_iff.1 rfl
      exact agrees.value?
  | cons d ds =>
      cases es with
      | nil => cases reports.eq_nil_iff.2 rfl
      | cons e es => exact .none

theorem both {α' β' : Type} {T : α' → β' → Prop} {f : α → γ → α'} {g : β → δ → β'} {v : Verdict α}
    {w : Verdict β} {v' : Verdict γ} {w' : Verdict δ} (left : Agrees t R v w)
    (right : Agrees t S v' w') (related : ∀ a b c d, R a b → S c d → T (f a c) (g b d)) :
    Agrees t T (both f v v') (both g w w') := by
  obtain ⟨errors, value?⟩ := v
  obtain ⟨others, other?⟩ := w
  obtain ⟨errors', value'?⟩ := v'
  obtain ⟨others', other'?⟩ := w'
  refine ⟨left.errors.append right.errors, ?_⟩
  cases left.value? with
  | none => exact .none
  | some hLeft =>
      cases right.value? with
      | none => exact .none
      | some hRight => exact .some (related _ _ _ _ hLeft hRight)

/-- Verdicts in a row that agree one by one. -/
theorem all_of_forall₂ {vs : List (Verdict α)} {ws : List (Verdict β)}
    (each : List.Forall₂ (Agrees t R) vs ws) :
    Agrees t (List.Forall₂ R) (all vs) (all ws) := by
  induction each with
  | nil => exact accept .nil
  | cons first _ ih => exact first.both ih fun _ _ _ _ => .cons

end Verdict.Agrees

/-- In another order verdicts have the same values in that order. -/
theorem Verdict.value?_all_perm {vs ws : List (Verdict α)} (perm : vs.Perm ws) :
    Option.Rel List.Perm (all vs).value? (all ws).value? := by
  have hCons : ∀ (v : Verdict α) (us : List (Verdict α)),
      (all (v :: us)).value? = v.value?.bind fun a => (all us).value?.map (List.cons a) :=
    fun _ _ => rfl
  induction perm with
  | nil => exact .some .rfl
  | @cons v vs ws _ ih =>
      rw [hCons, hCons]
      generalize (all vs).value? = as? at ih ⊢
      generalize (all ws).value? = bs? at ih ⊢
      cases v.value? with
      | none => exact .none
      | some a =>
          cases ih with
          | none => exact .none
          | some hPerm => exact .some (hPerm.cons a)
  | swap v w us =>
      simp only [hCons]
      generalize v.value? = a?
      generalize w.value? = b?
      generalize (all us).value? = as?
      cases a? <;> cases b? <;> cases as?
      case some.some.some b as => exact .some (.swap _ b as)
      all_goals exact .none
  | trans _ _ ih ih' => exact rel_comp (S := List.Perm) (fun _ _ _ => List.Perm.trans) ih ih'

/-- Verdicts that agree one by one when they are put in order. -/
theorem Verdict.Agrees.all {t : Tolerance} {vs : List (Verdict α)} {ws : List (Verdict β)}
    (arranged : Arranged t.free (Agrees t R) vs ws) :
    Agrees t (Arranged t.free R) (all vs) (all ws) := by
  obtain ⟨middle, hEach, hOrder⟩ := arranged
  obtain ⟨hErrors, hValue⟩ := all_of_forall₂ hEach
  refine ⟨hErrors.shuffle ?_, ?_⟩
  · rw [errors_all, errors_all]
    exact hOrder.flatMap _
  · rcases hOrder with rfl | ⟨hFree, hPerm⟩
    · exact rel_imp (fun _ _ => .of_forall₂) hValue
    · exact rel_comp (fun as bs cs related hSame => ⟨bs, related, .inr ⟨hFree, hSame⟩⟩) hValue
        (value?_all_perm hPerm)

/-- Verdicts that agree both give related values, or both report. -/
theorem Verdict.Agrees.toExcept {t : Tolerance} {v : Verdict α} {w : Verdict β}
    (agrees : Agrees t R v w) :
    (∃ a b, v.toExcept = .ok a ∧ w.toExcept = .ok b ∧ R a b) ∨
      v.toExcept = .error v.errors ∧ w.toExcept = .error w.errors := by
  obtain ⟨errors, value?⟩ := v
  obtain ⟨others, other?⟩ := w
  obtain ⟨hErrors, hValue⟩ := agrees
  cases hValue with
  | none => exact .inr ⟨rfl, rfl⟩
  | some related =>
      cases errors with
      | nil =>
          obtain rfl := hErrors.eq_nil_iff.1 rfl
          exact .inl ⟨_, _, rfl, rfl, related⟩
      | cons d ds =>
          cases others with
          | nil => cases hErrors.eq_nil_iff.2 rfl
          | cons e es => exact .inr ⟨rfl, rfl⟩

end TypedConfig
