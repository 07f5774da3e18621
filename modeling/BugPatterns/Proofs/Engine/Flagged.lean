import BugPatterns.Proofs.Constancy.Verdict
import BugPatterns.Proofs.Engine.Retracing

/-!
# Flagged queries

A call is flagged if it reaches a sink with a query that is unsafe (`Rule.reports_sqlInjection`),
and the findings of that rule stand where the flagged calls stand (`Registry.spans_of_flagged`). If
a catalog and a depth settle every verdict that another catalog and another depth do not find
unsafe, they flag no call that was not flagged (`Registry.flagged_sublist_of_settled`).
-/

namespace BugPatterns

open Verdict (SettledBy)

namespace Rule

variable {here : Surroundings} {node : Node Site}

/-- A call is reported if it reaches a sink with a query that is unsafe. -/
theorem reports_sqlInjection :
    (sqlInjection.visit here node).reports ≠ [] ↔
      ∃ call sink query, node = .expr call ∧ sinkOfCall? here call = some (sink, query) ∧
        (here.classify query).isUnsafe = true := by
  constructor
  · intro reported
    cases node with
    | expr call =>
        simp only [sqlInjection] at reported
        cases reached : sinkOfCall? here call with
        | none => simp [reached, Answer.nothing, Answer.ofReports] at reported
        | some pair =>
            obtain ⟨sink, query⟩ := pair
            refine ⟨call, sink, query, rfl, reached, ?_⟩
            by_contra harmless
            simp [reached, harmless, Answer.nothing, Answer.ofReports] at reported
    | _ => exact absurd rfl reported
  · rintro ⟨call, sink, query, rfl, reached, blamed⟩
    simp [sqlInjection, reached, blamed, Answer.ofReports]

/-- A call is reported once, where it stands. -/
theorem spans_of_traced {check : Check} (member : check ∈ builtinChecks)
    (traces : check.key = "S2077") (reported : (check.visit here node).reports ≠ []) :
    (check.visit here node).reports.map (·.span) = [node.span] := by
  obtain rfl := eq_sqlInjection check member traces
  obtain ⟨call, sink, query, rfl, reached, blamed⟩ := reports_sqlInjection.mp reported
  simp [sqlInjection, reached, blamed, Answer.ofReports, Report.about]

/-- Only the sinks of a catalog say which sink a call reaches. -/
theorem sinkOfCall?_retraced {catalog : Catalog} (sinks : catalog.sinks = here.catalog.sinks)
    (depth : Nat) (call : Expr Site) :
    sinkOfCall? (here.retraced catalog depth) call = sinkOfCall? here call := by
  have reaches (receiver : TypeId) (method : String) :
      catalog.sink? here.model receiver method = here.catalog.sink? here.model receiver method := by
    rw [Catalog.sink?, Catalog.sink?, sinks]
  unfold sinkOfCall?
  split
  · exact congrArg _ (funext fun receiver => congrArg (· >>= _) (reaches receiver _))
  · rfl

/-- Where a rule reports something after verdicts were settled, it did so before. -/
theorem reports_of_settled {check : Check} (member : check ∈ builtinChecks) {catalog : Catalog}
    {depth : Nat} (sinks : catalog.sinks = here.catalog.sinks)
    (settled : ∀ e, SettledBy (here.classify e) ((here.retraced catalog depth).classify e))
    (reported : (check.visit (here.retraced catalog depth) node).reports ≠ []) :
    (check.visit here node).reports ≠ [] := by
  by_cases traces : check.key = "S2077"
  · obtain rfl := eq_sqlInjection check member traces
    rw [reports_sqlInjection] at reported ⊢
    obtain ⟨call, sink, query, same, reached, blamed⟩ := reported
    rw [sinkOfCall?_retraced sinks] at reached
    refine ⟨call, sink, query, same, reached, ?_⟩
    by_contra harmless
    rw [Bool.not_eq_true] at harmless
    rw [settled query harmless, harmless] at blamed
    cases blamed
  · rwa [visit_retraced check member traces] at reported

end Rule

namespace Registry

namespace Showing

/-- Whether a node is shown to a rule that reports something about it. -/
def isFlagged (key : String) (showing : Showing) : Bool :=
  showing.check.key = key && !(showing.diagnostics showing.answer).isEmpty

theorem isFlagged_iff {key : String} {showing : Showing} :
    showing.isFlagged key = true ↔ showing.check.key = key ∧ showing.answer.reports ≠ [] := by
  simp [isFlagged, diagnostics]

end Showing

/-- The nodes of a unit that a rule reports something about, in the order of a pass. -/
def flagged (registry : Registry) (key : String) (loaded : LoadedUnit) (catalog : Catalog)
    (maxDepth : Nat) : List (Node Site) :=
  ((registry.showings loaded catalog maxDepth).filter (Showing.isFlagged key)).map (·.node)

section Flagged

variable {registry : Registry} (loaded : LoadedUnit) (catalog : Catalog)

theorem here_of_showing {depth : Nat} {showing : Showing}
    (shown : showing ∈ registry.showings loaded catalog depth) :
    ∃ scopes, showing.here = ⟨loaded, catalog, depth, scopes⟩ := by
  obtain ⟨placed, -, listed⟩ := List.mem_flatMap.mp shown
  obtain ⟨check, -, rfl⟩ := List.mem_map.mp listed
  exact ⟨placed.1, rfl⟩

variable (indexed : registry.Indexed) (builtin : ∀ check ∈ registry.checks, check ∈ builtinChecks)

include indexed builtin

/-- The nodes that are flagged for their queries stand where the findings are. -/
theorem spans_of_flagged (depth : Nat) :
    ((registry.run loaded catalog depth).diagnostics.filter (fun found => found.rule = "S2077")).map
        (·.span) =
      (registry.flagged "S2077" loaded catalog depth).map Node.span := by
  rw [diagnostics_run, flagged, List.filter_flatMap, List.map_flatMap, List.map_map]
  refine flatMap_eq_map_filter ?_
  intro showing shown
  by_cases key : showing.check.key = "S2077"
  · have kept : (showing.diagnostics showing.answer).filter (fun found => found.rule = "S2077") =
        showing.diagnostics showing.answer := by
      refine List.filter_eq_self.mpr ?_
      intro found listed
      obtain ⟨report, -, rfl⟩ := List.mem_map.mp listed
      exact decide_eq_true key
    have spans : (showing.diagnostics showing.answer).map (·.span) =
        showing.answer.reports.map (·.span) := List.map_map
    rw [kept, spans]
    by_cases reported : showing.answer.reports = []
    · have clear : ¬ showing.isFlagged "S2077" = true := fun flagged =>
        (Showing.isFlagged_iff.mp flagged).2 reported
      rw [reported, if_neg clear, List.map_nil]
    · have member := builtin _ (check_mem_of_showing loaded catalog depth indexed shown)
      rw [if_pos (Showing.isFlagged_iff.mpr ⟨key, reported⟩)]
      exact Rule.spans_of_traced member key reported
  · have clear : ¬ showing.isFlagged "S2077" = true := fun flagged =>
      key (Showing.isFlagged_iff.mp flagged).1
    rw [if_neg clear]
    simp [Showing.diagnostics, List.filter_map, Function.comp_def, key]

/-- Where verdicts are settled fewer nodes are flagged, and none that were not. -/
theorem flagged_sublist_of_settled (key : String) {other : Catalog} {depth more : Nat}
    (sinks : other.sinks = catalog.sinks)
    (settled : ∀ context e, SettledBy (Tracer.classify ⟨loaded, catalog, depth⟩ context e)
      (Tracer.classify ⟨loaded, other, more⟩ context e)) :
    (registry.flagged key loaded other more).Sublist
      (registry.flagged key loaded catalog depth) := by
  unfold flagged
  rw [showings_retraced loaded catalog other depth more, List.filter_map, List.map_map]
  have kept : (registry.showings loaded catalog depth).filter
        (Showing.isFlagged key ∘ (·.retraced other more)) =
      ((registry.showings loaded catalog depth).filter (Showing.isFlagged key)).filter
        (Showing.isFlagged key ∘ (·.retraced other more)) := by
    rw [List.filter_filter]
    refine List.filter_congr ?_
    intro showing shown
    rw [Bool.eq_iff_iff, Bool.and_eq_true]
    refine ⟨fun later => ⟨later, ?_⟩, And.left⟩
    obtain ⟨same, reported⟩ := Showing.isFlagged_iff.mp later
    have member := builtin _ (check_mem_of_showing loaded catalog depth indexed shown)
    obtain ⟨scopes, around⟩ := here_of_showing loaded catalog shown
    refine Showing.isFlagged_iff.mpr ⟨same, Rule.reports_of_settled member ?_ ?_ reported⟩
    · rw [around]
      exact sinks
    · intro e
      rw [around]
      exact settled _ e
  rw [kept]
  exact List.Sublist.map _ List.filter_sublist

end Flagged

end Registry

/-- The nodes of a unit that a rule reports something about when an engine analyses it. -/
def Engine.flagged (engine : Engine) (key : String) (loaded : LoadedUnit) : List (Node Site) :=
  engine.registry.flagged key loaded engine.catalog engine.options.maxTraceDepth.toNat

end BugPatterns
