import TypedConfig.Typing.Demand
import TypedConfig.Typing.Homogeneity
/-!
Checking a document against declarations. Everything that is wrong is reported, in the order of the
source text. A value at fault itself does not hide faults of its parts: they are still checked, as
parts of undeclared positions.
-/
namespace TypedConfig

variable (registry : Registry) (options : Options)

mutual

/-- Checks a value in a position of a declared type, or without one. -/
def Node.check (type? : Option TypeExpr) : Node → Verdict Value
  | ⟨form, span⟩ => form.check (registry.demand type?) span
termination_by structural node => node

/-- Checks a value against a demand. -/
def Form.check (demand : Demand) (span : Span) : Form → Verdict Value
  | .array items =>
    match demand with
    | .anything =>
      (ItemClass.allFrom none ((items.map Node.span).zip (Node.checkAll none items))).map .array
    | .array item => (Verdict.all (Node.checkAll (some item) items)).map .array
    | _ => .refuse (demand.mismatch (.array items) span)
  | .object typeName entries opened =>
    match demand.objectPlan registry typeName opened span with
    | .declared declared =>
      ((Verdict.all (Entry.checkAll (some declared) entries)).after
        (declared.missing entries opened)).map (.object typeName)
    | .undeclared faults =>
      ((Verdict.all (Entry.checkAll none entries)).after faults).map (.object typeName)
    | .skipped fault => .refuse fault
  | .variant enum name payload =>
    match demand.variantPlan registry enum name payload span with
    | .declared shape =>
      (Payload.check (Value.variantPath enum name) span (some shape) payload).map
        (.variant enum name)
    | .undeclared faults =>
      ((Payload.check (Value.variantPath enum name) span none payload).after faults).map
        (.variant enum name)
    | .skipped fault => .refuse fault
  | scalar => demand.checkScalar options scalar span
termination_by structural form => form

/-- Checks a payload as declared, or as one of which nothing is declared. Diagnostics about missing
fields point at the whole literal. -/
def Payload.check (path : String) (span : Span) (declared? : Option (Payload Slot Field)) :
    Payload Node Entry → Verdict (Payload Value (String × Value))
  | .unit => .accept .unit
  | .tuple items =>
    match declared? with
    | some (.tuple slots) => (Verdict.all (Node.checkSlots slots items)).map .tuple
    | _ => (Verdict.all (Node.checkAll none items)).map .tuple
  | .fields entries =>
    match declared? with
    | some (.fields fields) =>
      let declared : OwnedFields := ⟨"variant " ++ path, fields⟩
      ((Verdict.all (Entry.checkAll (some declared) entries)).after
        (declared.missing entries span)).map .fields
    | _ => (Verdict.all (Entry.checkAll none entries)).map .fields
termination_by structural payload => payload

/-- Checks values that are all in positions of the same type. -/
def Node.checkAll (type? : Option TypeExpr) : List Node → List (Verdict Value)
  | [] => []
  | node :: nodes => node.check type? :: Node.checkAll type? nodes
termination_by structural nodes => nodes

/-- Checks the slots of a tuple. -/
def Node.checkSlots : List Slot → List Node → List (Verdict Value)
  | slot :: slots, node :: nodes => node.check (some slot.type) :: Node.checkSlots slots nodes
  | _, _ => []
termination_by structural _ nodes => nodes

/-- Checks entries as declared, or as those of an undeclared object. -/
def Entry.checkAll (declared? : Option OwnedFields) :
    List Entry → List (Verdict (String × Value))
  | [] => []
  | ⟨key, keySpan, node⟩ :: entries =>
    let plan := EntryPlan.ofKey declared? key keySpan
    let verdict := if plan.optional && node.isNull then .accept .null else node.check plan.type?
    (verdict.after plan.faults).map (key, ·) :: Entry.checkAll declared? entries
termination_by structural entries => entries

end

end TypedConfig
