import TypedConfig.Declaration
import TypedConfig.Repetition
/-!
Registries: declarations that are looked up by name. No two of them have the same name.
-/
namespace TypedConfig

/-- Declarations under different names, in the order in which they were declared. -/
structure Registry where
  declarations : List Declaration
  nodup : (declarations.map Declaration.name).Nodup

namespace Registry

/-- The registry of declarations, unless a name is repeated. -/
def build (declarations : List Declaration) : Except Diagnostic Registry :=
  match h : firstRepeat? Declaration.name declarations with
  | some (first, again) =>
    .error ⟨.inclusion (.duplicateDeclaration again.name first.span), again.span⟩
  | none => .ok ⟨declarations, firstRepeat?_eq_none_iff.1 h⟩

theorem build_eq_ok {ds : List Declaration} (nodup : (ds.map Declaration.name).Nodup) :
    build ds = .ok ⟨ds, nodup⟩ := by
  rw [build.eq_def]
  split
  · next hRepeat =>
    rw [firstRepeat?_eq_none_iff.2 nodup] at hRepeat
    cases hRepeat
  · rfl

/-- The declaration of a name. -/
def get? (registry : Registry) (name : String) : Option Declaration :=
  registry.declarations.find? (·.name = name)

/-- Whether there is a declaration of a name. -/
def contains (registry : Registry) (name : String) : Bool :=
  (registry.get? name).isSome

/-! ### References between declarations -/

/-- Reports a type that refers to no declaration. -/
def unresolvedIn (registry : Registry) (type : TypeExpr) (span : Span) : List Diagnostic :=
  match type.reference? with
  | some name => if registry.contains name then [] else [⟨.typing (.unknownType name), span⟩]
  | none => []

/-- Reports fields whose types refer to no declaration. -/
def unresolvedInFields (registry : Registry) (fields : List Field) : List Diagnostic :=
  fields.flatMap fun f => registry.unresolvedIn f.type f.span

/-- Reports slots and fields whose types refer to no declaration. -/
def unresolvedInPayload (registry : Registry) : Payload Slot Field → List Diagnostic
  | .unit => []
  | .tuple slots => slots.flatMap fun s => registry.unresolvedIn s.type s.span
  | .fields fields => registry.unresolvedInFields fields

/-- Reports the references of one declaration. -/
def unresolvedInBody (registry : Registry) : Declaration.Body → List Diagnostic
  | .record fields => registry.unresolvedInFields fields
  | .choice variants => variants.flatMap fun v => registry.unresolvedInPayload v.shape

/-- Reports every reference to a declaration that there is not, once for each place in the
declarations. -/
def unresolved (registry : Registry) : List Diagnostic :=
  registry.declarations.flatMap fun d => registry.unresolvedInBody d.body

end Registry

end TypedConfig
