import BugPatterns.Proofs.Check.Dispatch

/-!
# Checks do not affect each other

The checks of a registry share the state of a pass. Still, what comes up under the key of one of
them is what comes up in a registry that holds it alone (`Registry.run_filter_key`): all it reports
on the nodes of its kinds, also where it fails after that, and one failure for each visit that
fails.
-/

namespace BugPatterns

/-- What a check answers to the nodes of its kinds, in the order of a pass. -/
def Check.answers (check : Check) (loaded : LoadedUnit) (catalog : Catalog) (maxDepth : Nat) :
    List (Node Site × Answer) :=
  (loaded.scopedNodes.filter fun placed => placed.2.kind ∈ check.kinds).map fun placed =>
    (placed.2, check.visit ⟨loaded, catalog, maxDepth, placed.1⟩ placed.2)

namespace Registry

variable (loaded : LoadedUnit) (catalog : Catalog) (maxDepth : Nat)

/-- A registry of one check shows it the nodes of its kinds. -/
theorem showings_alone {alone : Registry} {check : Check} (made : alone.MadeOf [check]) :
    alone.showings loaded catalog maxDepth =
      (loaded.scopedNodes.filter fun placed => placed.2.kind ∈ check.kinds).map fun placed =>
        ⟨check, ⟨loaded, catalog, maxDepth, placed.1⟩, placed.2⟩ := by
  refine flatMap_eq_map_filter fun placed _ => ?_
  simp only [made.indexed.subscribers, made.checks, List.filter_singleton, decide_eq_true_eq]
  split
  · next named => simp only [named, decide_true, cond_true, List.map_cons, List.map_nil]
  · next unnamed => simp only [unnamed, decide_false, cond_false, List.map_nil]

/-- Alone, a check has reported all that it answers, and failed where its answer says so. -/
theorem run_alone {alone : Registry} {check : Check} (made : alone.MadeOf [check]) :
    (alone.run loaded catalog maxDepth).diagnostics =
        (check.answers loaded catalog maxDepth).flatMap (fun (_, answer) =>
          answer.reports.map fun report =>
            ⟨check.key, check.severity, loaded.file, report.span, report.kind, report.message⟩) ∧
      (alone.run loaded catalog maxDepth).failures =
        (check.answers loaded catalog maxDepth).filterMap (fun (node, answer) =>
          answer.failure.map fun error => ⟨check.key, node.span, error⟩) := by
  rw [diagnostics_run, failures_run, showings_alone loaded catalog maxDepth made, Check.answers]
  simp only [List.flatMap_map, List.filterMap_map]
  exact ⟨rfl, rfl⟩

/-- Among checks with different keys only one has the key of a check. -/
theorem filter_key_eq_singleton {checks : List Check} (distinct : (checks.map (·.key)).Nodup)
    {check : Check} (listed : check ∈ checks) :
    checks.filter (fun c => c.key = check.key) = [check] := by
  obtain ⟨before, after, rfl⟩ := List.append_of_mem listed
  rw [List.map_append, List.map_cons, List.nodup_middle, List.nodup_cons,
    List.mem_append] at distinct
  have others {c : Check} (member : c ∈ before ∨ c ∈ after) : c.key ≠ check.key := by
    intro same
    refine distinct.1 (member.imp ?_ ?_) <;> exact fun inside => List.mem_map.mpr ⟨c, inside, same⟩
  have none (part : List Check) (inside : ∀ c ∈ part, c ∈ before ∨ c ∈ after) :
      part.filter (fun c => c.key = check.key) = [] :=
    List.filter_eq_nil_iff.mpr fun c member same =>
      others (inside c member) (of_decide_eq_true same)
  rw [List.filter_append, List.filter_cons_of_pos (by simp), none before fun _ => Or.inl,
    none after fun _ => Or.inr, List.nil_append]

/-- Each check of a registry makes one by itself, which has the checks of that key. -/
theorem MadeOf.exists_alone {checks : List Check} {registry : Registry}
    (whole : registry.MadeOf checks) {check : Check} (listed : check ∈ checks) :
    ∃ alone, ofChecks [check] = .ok alone ∧ alone.MadeOf [check] ∧
      alone.checks = registry.checks.filter fun c => c.key = check.key := by
  have registrable : ∀ c ∈ [check], c.Registrable := fun c member =>
    List.mem_singleton.mp member ▸ whole.registrable check listed
  obtain ⟨alone, madeAlone, -, -⟩ := ofChecks_eq_ok registrable (List.nodup_singleton _)
  have part := madeOf_of_ofChecks madeAlone
  refine ⟨alone, madeAlone, part, ?_⟩
  -- keys are different, so the check is the only one with its key
  rw [part.checks, whole.checks]
  exact (filter_key_eq_singleton whole.distinct listed).symm

/-- The findings under the key of a check are what it answers. -/
theorem MadeOf.diagnostics_of_key {checks : List Check} {registry : Registry}
    (whole : registry.MadeOf checks) {check : Check} (listed : check ∈ checks) :
    (registry.run loaded catalog maxDepth).diagnostics.filter
        (fun found => found.rule = check.key) =
      (check.answers loaded catalog maxDepth).flatMap (fun (_, answer) =>
        answer.reports.map fun report =>
          ⟨check.key, check.severity, loaded.file, report.span, report.kind, report.message⟩) := by
  obtain ⟨alone, -, part, chosen⟩ := whole.exists_alone listed
  rw [← (run_alone loaded catalog maxDepth part).1]
  let keep : String → Bool := fun key => key = check.key
  exact (@diagnostics_filter registry alone loaded catalog maxDepth whole.indexed part.indexed keep
    chosen).symm

/-- What comes up under the key of a check is what comes up in a registry of that check alone.
    There it reports all that it answers, whether it fails or not, and each failure is noted once,
    with the span of the node. -/
theorem run_filter_key {checks : List Check} {registry : Registry}
    (made : ofChecks checks = .ok registry) {check : Check} (listed : check ∈ checks) :
    registry.pass loaded catalog maxDepth = registry.run loaded catalog maxDepth ∧
    ∃ alone, ofChecks [check] = .ok alone ∧
      (registry.run loaded catalog maxDepth).diagnostics.filter
          (fun found => found.rule = check.key) =
        (alone.run loaded catalog maxDepth).diagnostics ∧
      (registry.run loaded catalog maxDepth).failures.filter
          (fun failed => failed.rule = check.key) =
        (alone.run loaded catalog maxDepth).failures ∧
      (alone.run loaded catalog maxDepth).diagnostics =
        (check.answers loaded catalog maxDepth).flatMap (fun (_, answer) =>
          answer.reports.map fun report =>
            ⟨check.key, check.severity, loaded.file, report.span, report.kind, report.message⟩) ∧
      (alone.run loaded catalog maxDepth).failures =
        (check.answers loaded catalog maxDepth).filterMap (fun (node, answer) =>
          answer.failure.map fun error => ⟨check.key, node.span, error⟩) := by
  have whole := madeOf_of_ofChecks made
  obtain ⟨alone, madeAlone, part, chosen⟩ := whole.exists_alone listed
  have output := run_alone loaded catalog maxDepth part
  let keep : String → Bool := fun key => key = check.key
  have found := @diagnostics_filter registry alone loaded catalog maxDepth whole.indexed
    part.indexed keep chosen
  have failed := @failures_filter registry alone loaded catalog maxDepth whole.indexed
    part.indexed keep chosen
  exact ⟨pass_eq_run registry loaded catalog maxDepth, alone, madeAlone, found.symm, failed.symm,
    output⟩

end Registry

theorem Registry.run_filter_key_probe :
    ∃ registry alone,
      ofChecks [.probe "X1" (some "probe failure"), .probe "X2" none] = .ok registry ∧
      ofChecks [.probe "X1" (some "probe failure")] = .ok alone ∧
      (registry.run .localType .empty 8).diagnostics.filter (fun found => found.rule = "X1") =
        (alone.run .localType .empty 8).diagnostics ∧
      (alone.run .localType .empty 8).diagnostics =
        [⟨"X1", .minor, "Outer.java", .point 1 1, .ordinaryClass, "in no class"⟩,
          ⟨"X1", .minor, "Outer.java", .point 3 3, .ordinaryClass, "in Outer"⟩] ∧
      (registry.run .localType .empty 8).failures.filter (fun failed => failed.rule = "X1") =
        [⟨"X1", .point 1 1, "probe failure"⟩, ⟨"X1", .point 3 3, "probe failure"⟩] := by
  obtain ⟨registry, made⟩ := Registry.exists_of_probes
  obtain ⟨-, alone, madeAlone, found, failed, reported, noted⟩ :=
    run_filter_key .localType .empty 8 made List.mem_cons_self
  refine ⟨registry, alone, made, madeAlone, found, reported.trans ?_, failed.trans (noted.trans ?_)⟩
  · decide
  · decide

end BugPatterns
