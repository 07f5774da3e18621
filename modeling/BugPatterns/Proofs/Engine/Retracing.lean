import BugPatterns.Proofs.Engine.Selection

/-!
# Rules that trace no values

Only one rule traces values and looks for sinks. A pass with another catalog and another depth shows
the same nodes to the same checks, and under all other rules it has the same findings
(`Registry.diagnostics_retraced`).
-/

namespace BugPatterns

/-- The surroundings with another catalog and another bound on how deeply values are traced. -/
def Surroundings.retraced (here : Surroundings) (catalog : Catalog) (depth : Nat) : Surroundings :=
  { here with catalog := catalog, maxDepth := depth }

namespace Rule

/-- A rule other than that for queries looks neither at the catalog nor at the depth. -/
theorem visit_retraced : ∀ check ∈ builtinChecks, check.key ≠ "S2077" → ∀ catalog depth here node,
    check.visit (here.retraced catalog depth) node = check.visit here node := by
  rw [forall_builtin]
  exact ⟨fun _ _ _ _ _ => rfl, fun traces => absurd rfl traces, fun _ _ _ _ _ => rfl,
    fun _ _ _ _ _ => rfl⟩

theorem eq_sqlInjection : ∀ check ∈ builtinChecks, check.key = "S2077" → check = sqlInjection := by
  rw [forall_builtin]
  exact ⟨fun other => absurd other (by decide), fun _ => rfl,
    fun other => absurd other (by decide), fun other => absurd other (by decide)⟩

end Rule

namespace Registry

/-- A showing with another catalog and another bound on how deeply values are traced. -/
def Showing.retraced (showing : Showing) (catalog : Catalog) (depth : Nat) : Showing :=
  { showing with here := showing.here.retraced catalog depth }

variable {registry : Registry} (loaded : LoadedUnit)

theorem showings_retraced (catalog other : Catalog) (depth more : Nat) :
    registry.showings loaded other more =
      (registry.showings loaded catalog depth).map (·.retraced other more) := by
  simp only [showings, List.map_flatMap, List.map_map]
  rfl

/-- The rules that trace no values find the same with any catalog and any depth. -/
theorem diagnostics_retraced (indexed : registry.Indexed)
    (builtin : ∀ check ∈ registry.checks, check ∈ builtinChecks) (catalog other : Catalog)
    (depth more : Nat) :
    (registry.run loaded other more).diagnostics.filter (fun found => found.rule ≠ "S2077") =
      (registry.run loaded catalog depth).diagnostics.filter
        (fun found => found.rule ≠ "S2077") := by
  rw [diagnostics_run, diagnostics_run, showings_retraced loaded catalog other depth more,
    List.flatMap_map, List.filter_flatMap, List.filter_flatMap]
  refine List.flatMap_congr ?_
  intro showing shown
  by_cases traces : showing.check.key = "S2077"
  · simp [Showing.diagnostics, Showing.retraced, List.filter_map, Function.comp_def, traces]
  · have member := builtin _ (check_mem_of_showing loaded catalog depth indexed shown)
    have same : (showing.retraced other more).answer = showing.answer :=
      Rule.visit_retraced _ member traces other more showing.here showing.node
    rw [same]
    rfl

end Registry

end BugPatterns
