import TypedConfig.Typing.Verdict
import TypedConfig.Value
/-!
Arrays of undeclared positions hold values of one class: all numbers, alternatives of one enum, or
values of one other kind. The first item that has a class fixes it; null has none.
-/
namespace TypedConfig

/-- A class of values that may stand in one array. -/
inductive ItemClass where
  | number
  | enum (name : String)
  | other (kind : Value.Kind)
deriving Repr, DecidableEq

/-- How diagnostics name a class. -/
def ItemClass.text : ItemClass → String
  | number => "number"
  | enum name => "enum " ++ name
  | other kind => kind.text

/-- The class of a value. -/
def Value.itemClass? : Value → Option ItemClass
  | null => none
  | integer _ => some .number
  | float _ => some .number
  | variant enum _ _ => some (.enum enum)
  | value => some (.other value.kind)

namespace ItemClass

/-- Reports an item that is not of the class that earlier items have fixed. -/
def faults (fixed : Option ItemClass) (item : Option Value) (span : Span) : List Diagnostic :=
  match fixed, item.bind Value.itemClass? with
  | some wanted, some found =>
    if found = wanted then []
    else [⟨.typing (.mismatch ("array element of kind " ++ wanted.text) found.text), span⟩]
  | _, _ => []

/-- Puts the verdicts on items at their places together, and reports each item that is not of the
class that earlier items have fixed. -/
def allFrom (fixed : Option ItemClass) : List (Span × Verdict Value) → Verdict (List Value)
  | [] => .accept []
  | (span, v) :: rest =>
    let faults := faults fixed v.value? span
    let v : Verdict Value := ⟨v.errors ++ faults, if faults.isEmpty then v.value? else none⟩
    .both List.cons v (allFrom (fixed.or (v.value?.bind Value.itemClass?)) rest)

end ItemClass

end TypedConfig
