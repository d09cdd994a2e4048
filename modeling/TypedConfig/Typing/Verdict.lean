import TypedConfig.Diagnostic
/-!
Verdicts: everything that is wrong with a part of a document, and the value of the part if nothing
is. Verdicts of the parts of a whole are put together without stopping at the first that is bad.
-/
namespace TypedConfig

/-- The outcome of checking a part of a document. -/
structure Verdict (α : Type) where
  errors : List Diagnostic
  value? : Option α
deriving Repr

namespace Verdict

variable {α β γ : Type}

/-- Nothing is wrong. -/
def accept (a : α) : Verdict α := ⟨[], some a⟩

/-- One thing is wrong. -/
def refuse (d : Diagnostic) : Verdict α := ⟨[d], none⟩

/-- Puts a function on the value. -/
def map (f : α → β) (v : Verdict α) : Verdict β := ⟨v.errors, v.value?.map f⟩

/-- Puts diagnostics of the whole before those of its parts. There is a value only if there are
none. -/
def after (reports : List Diagnostic) (v : Verdict α) : Verdict α :=
  ⟨reports ++ v.errors, if reports.isEmpty then v.value? else none⟩

/-- The verdict on two parts. -/
def both (f : α → β → γ) (v : Verdict α) (w : Verdict β) : Verdict γ :=
  ⟨v.errors ++ w.errors, v.value?.bind fun a => w.value?.map (f a)⟩

/-- The verdict on a list of parts. -/
def all : List (Verdict α) → Verdict (List α)
  | [] => accept []
  | v :: vs => both List.cons v (all vs)

/-- A value, or everything that is wrong. -/
def toExcept (v : Verdict α) : Except (List Diagnostic) α :=
  match v.value?, v.errors with
  | some a, [] => .ok a
  | _, errors => .error errors

end Verdict

end TypedConfig
