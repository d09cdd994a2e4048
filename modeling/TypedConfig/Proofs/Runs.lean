import TypedConfig.Proofs.Places.Diagnostics
import TypedConfig.Proofs.Typing.Exactness
/-!
How runs end. Whatever is checked has a value exactly if nothing is reported of it, and so a run
that fails says why, and one that reports nothing succeeds.
-/
namespace TypedConfig

/-- How a run ends, by what putting its files together gives. What stops that is all that is
reported. A bundle becomes a configuration if there is nothing to report of its declarations and of
any of its entries, and otherwise all that there is to report is reported. -/
inductive Configuration.Ends (options : Options) :
    Except Diagnostic Bundle → Except (List Diagnostic) Configuration → Prop where
  | stopped {d : Diagnostic} (stage : d.cause.stage ∈ ["lex", "parse", "include"]) :
      Ends options (.error d) (.error [d])
  | accepted {bundle : Bundle} {registry : Registry} {c : Configuration}
      (declared : Registry.build bundle.declarations = .ok registry)
      (checks : bundle.check registry options = .ok c) (resolved : registry.unresolved = [])
      (silent : ∀ entry ∈ bundle.root.entries, entry.value.reports registry options none = []) :
      Ends options (.ok bundle) (.ok c)
  | refused {bundle : Bundle} {registry : Registry} {reports : List Diagnostic}
      (declared : Registry.build bundle.declarations = .ok registry)
      (all : reports = registry.unresolved ++
        bundle.root.entries.flatMap fun entry => entry.value.reports registry options none)
      (some : reports ≠ []) (stages : ∀ d ∈ reports, d.cause.stage = "validate") :
      Ends options (.ok bundle) (.error reports)

section

variable {registry : Registry} {options : Options}

theorem Verdict.Settled.toExcept_cases {α : Type} {v : Verdict α} (settled : v.Settled) :
    (v.errors = [] ∧ ∃ a, v.toExcept = .ok a) ∨ (v.errors ≠ [] ∧ v.toExcept = .error v.errors) := by
  obtain ⟨errors, value?⟩ := v
  cases value? with
  | none => exact .inr ⟨fun silent => by simpa using settled.2 silent, rfl⟩
  | some a =>
      obtain rfl : errors = [] := settled.1 rfl
      exact .inl ⟨rfl, a, rfl⟩

/-- A bundle is refused with its reports, and accepted if there are none. -/
theorem Bundle.check_cases (bundle : Bundle) :
    (bundle.reports registry options = [] ∧ ∃ c, bundle.check registry options = .ok c) ∨
      (bundle.reports registry options ≠ [] ∧
        bundle.check registry options = .error (bundle.reports registry options)) := by
  have hEntries : (Verdict.all
      (Entry.checkAll registry options none bundle.root.entries)).Settled :=
    Entry.checkAll_settled fun node _ => node.check_settled
  rcases ((hEntries.map Configuration.mk).after registry.unresolved).toExcept_cases with
    ⟨-, c, hCheck⟩ | ⟨hErrors, hCheck⟩
  · have hOk : bundle.check registry options = .ok c := hCheck
    exact .inl ⟨by rw [reports, hOk], c, hOk⟩
  · have hError : bundle.check registry options = .error _ := hCheck
    rw [reports, hError]
    exact .inr ⟨hErrors, rfl⟩

namespace Configuration

variable {lib : Library} {path : Path} {source : String}

/-- A bundle of files ends a run with a configuration or with what there is to report of it. -/
theorem ends_of_ok {bundle : Bundle} (runs : Bundle.ofSource lib path source = .ok bundle) :
    Ends options (.ok bundle) (bundle.elaborate options) := by
  have hNodup := Bundle.nodup_of_ofSource runs
  have hDeclared := Registry.build_eq_ok hNodup
  have hPlaced := (Bundle.ofSource_outcome lib path source).of_ok runs
  have hCheck : bundle.elaborate options = bundle.check ⟨_, hNodup⟩ options :=
    Bundle.elaborate_eq_check hNodup
  rcases bundle.check_cases with ⟨hSilent, c, hOk⟩ | ⟨hSome, hError⟩
  · rw [hCheck, hOk]
    rw [Bundle.reports_eq, List.append_eq_nil_iff, List.flatMap_eq_nil_iff] at hSilent
    exact .accepted hDeclared hOk hSilent.1 hSilent.2
  · rw [hError] at hCheck
    rw [hCheck]
    refine .refused hDeclared Bundle.reports_eq hSome fun d mem => ?_
    exact (hPlaced.elaborate_within hNodup hCheck d mem).stage

theorem ends_of_ofSource :
    Ends options (Bundle.ofSource lib path source) (ofSource lib options path source) := by
  rw [ofSource]
  cases hRun : Bundle.ofSource lib path source with
  | error d => exact .stopped ((Bundle.ofSource_outcome lib path source).of_error hRun).stage
  | ok bundle => exact ends_of_ok hRun

theorem ends_of_load : Ends options (Bundle.load lib path) (load lib options path) := by
  rw [load_eq, Bundle.load]
  cases lib.read path with
  | error fault => exact .stopped (by simp [Cause.stage])
  | ok source => exact ends_of_ofSource

end Configuration

end

/-- A failed run says why, and a silent one has succeeded. Every checker function has a value
exactly if it reports nothing, whatever is demanded. A run stops at one diagnostic if its files
cannot be put together, and otherwise it succeeds exactly if there is nothing to report. -/
theorem failed_runs_report (registry : Registry) (options : Options) :
    (∀ type? node, (Node.check registry options type? node).Settled) ∧
    (∀ demand span form, (Form.check registry options demand span form).Settled) ∧
    (∀ path span declared? payload,
      (Payload.check registry options path span declared? payload).Settled) ∧
    (∀ declared? entries,
      (Verdict.all (Entry.checkAll registry options declared? entries)).Settled) ∧
    (∀ declared entries span, ((Verdict.all (Entry.checkAll registry options (some declared)
      entries)).after (declared.missing entries span)).Settled) ∧
    (∀ kind raw span, (options.checkExtended kind raw span).Settled) ∧
    ∀ lib path, Configuration.Ends options (Bundle.load lib path)
        (Configuration.load lib options path) ∧
      ∀ source, Configuration.Ends options (Bundle.ofSource lib path source)
        (Configuration.ofSource lib options path source) := by
  have hNodes : ∀ nodes : List Node, ∀ node ∈ nodes, ∀ type?,
      (node.check registry options type?).Settled := fun _ node _ => node.check_settled
  refine ⟨fun type? node => node.check_settled type?, fun demand span form => ?_,
    fun path span declared? payload => ?_, fun declared? entries => ?_,
    fun declared entries span => ?_, fun kind raw span => ?_, fun lib path => ?_⟩
  · exact Form.check_settled_of_parts (hNodes form.parts)
  · exact Payload.check_settled (hNodes payload.parts)
  · exact Entry.checkAll_settled (hNodes _)
  · exact .after _ (Entry.checkAll_settled (hNodes _))
  · exact Options.checkExtended_settled
  · exact ⟨Configuration.ends_of_load, fun source => Configuration.ends_of_ofSource⟩

end TypedConfig
