import BugPatterns.Proofs.Catalog.Extension
import BugPatterns.Proofs.Constancy.Alike
import BugPatterns.Proofs.Engine.Retracing
import Mathlib.Data.List.Flatten

/-!
# More sinks

Sinks that are added to the catalog of an engine hide nothing. A call that reached a sink still
reaches that one, its query is traced as before, and so it is reported with the same words; what is
found besides is about queries (`Engine.findings_of_more_sinks`).
-/

namespace BugPatterns

namespace Rule

variable {here : Surroundings} (added : List Sink)

/-- Sinks have no part in the verdict on an expression. -/
theorem classify_withSinks (e : Expr Site) :
    (here.retraced (here.catalog.withSinks added) here.maxDepth).classify e = here.classify e := by
  have alike : Tracer.AsksAlike ⟨here.loaded, here.catalog, here.maxDepth⟩
      ⟨here.loaded, here.catalog.withSinks added, here.maxDepth⟩ := ⟨rfl, rfl, rfl⟩
  have same := Tracer.classify_alike alike rfl
  exact congrFun (congrFun same here.enclosingMethod) e

/-- A call that reaches a sink reaches it with more sinks too. -/
theorem sinkOfCall?_withSinks {call query : Expr Site} {sink : Sink}
    (reached : sinkOfCall? here call = some (sink, query)) :
    sinkOfCall? (here.retraced (here.catalog.withSinks added) here.maxDepth) call =
      some (sink, query) := by
  unfold sinkOfCall? at reached ⊢
  split at reached
  · next target name _ _ _ _ _ _ =>
      obtain ⟨receiver, typed, found⟩ := Option.bind_eq_some_iff.mp reached
      obtain ⟨first, present, same⟩ := Option.bind_eq_some_iff.mp found
      cases same
      have still := Catalog.sink?_of_withSinks present added
      show ((here.loaded.typeOf target).bind fun receiver =>
        ((here.catalog.withSinks added).sink? here.model receiver name).bind _) = _
      rw [typed, Option.bind_some, still]
      rfl
  · cases reached

/-- With more sinks a rule reports what it reported, in the same words. -/
theorem reports_withSinks {check : Check} (member : check ∈ builtinChecks) (node : Node Site) :
    (check.visit here node).reports.Sublist
      (check.visit (here.retraced (here.catalog.withSinks added) here.maxDepth) node).reports := by
  by_cases traces : check.key = "S2077"
  · obtain rfl := eq_sqlInjection check member traces
    cases node with
    | expr call =>
        cases reached : sinkOfCall? here call with
        | none =>
            simp only [sqlInjection, reached]
            exact List.nil_sublist _
        | some pair =>
            obtain ⟨sink, query⟩ := pair
            have still := sinkOfCall?_withSinks added reached
            simp only [sqlInjection, reached, still, classify_withSinks]
            exact .refl _
    | _ => exact .refl _
  · rw [visit_retraced check member traces]

end Rule

namespace Registry

variable {registry : Registry} (loaded : LoadedUnit) (catalog : Catalog) (depth : Nat)

/-- With more sinks a pass finds what it found, in the same order. -/
theorem diagnostics_withSinks (indexed : registry.Indexed)
    (builtin : ∀ check ∈ registry.checks, check ∈ builtinChecks) (added : List Sink) :
    (registry.run loaded catalog depth).diagnostics.Sublist
      (registry.run loaded (catalog.withSinks added) depth).diagnostics := by
  rw [diagnostics_run, diagnostics_run,
    showings_retraced loaded catalog (catalog.withSinks added) depth depth, List.flatMap_map]
  refine List.Sublist.flatMap_right _ ?_
  intro showing shown
  have member := builtin _ (check_mem_of_showing loaded catalog depth indexed shown)
  obtain ⟨placed, -, listed⟩ := List.mem_flatMap.mp shown
  obtain ⟨check, -, rfl⟩ := List.mem_map.mp listed
  exact (Rule.reports_withSinks added member placed.2).map _

end Registry

namespace Engine

/-- An engine that was built runs some of the rules. -/
theorem builtin_of_build {options : Options} {extensions : List String} {engine : Engine}
    (built : build options extensions = .ok engine) :
    engine.registry.Indexed ∧ ∀ check ∈ engine.registry.checks, check ∈ builtinChecks := by
  obtain ⟨plain, made, extended⟩ := bind_eq_ok.mp built
  obtain ⟨chosen, registry, named, registered, rfl⟩ := ofOptions_eq_ok_iff.mp made
  obtain ⟨known, -⟩ := chooseChecks_eq_ok_iff.mp named
  obtain ⟨same, remade, indexed, checks⟩ := ofOptions_eq_ok known
  obtain rfl : registry = same :=
    congrArg Engine.registry (Except.ok.inj (made.symm.trans remade))
  rw [foldlM_extendText] at extended
  cases accepted : extensions.foldlM Catalog.extendText .builtin with
  | error cause =>
      simp only [accepted] at extended
      cases extended
  | ok catalog =>
      simp only [accepted] at extended
      obtain rfl := Except.ok.inj extended
      exact ⟨indexed, checks_builtin checks⟩

/-- Only the catalog of an engine is extended. -/
theorem withSinks_of_extendText {engine extended : Engine} {text : String}
    {document : CatalogDocument} (parsed : CatalogDocument.parse text = .ok document)
    (noCalls : document.calls = []) (noConstructors : document.constructors = [])
    (accepted : engine.extendText text = .ok extended) :
    ∃ added, extended = { engine with catalog := engine.catalog.withSinks added } := by
  have merged : engine.catalog.extendText text = engine.catalog.extend document := by
    simp only [Catalog.extendText, parsed]
  rw [extendText, merged] at accepted
  cases outcome : engine.catalog.extend document with
  | error cause =>
      rw [outcome] at accepted
      cases accepted
  | ok catalog =>
      rw [outcome] at accepted
      obtain rfl := Except.ok.inj accepted
      exact ⟨_, by rw [Catalog.withSinks_of_extend noCalls noConstructors outcome]⟩

/-- Sinks that are added to an engine hide no finding: what was found is found in the same order and
    with the same words, and all that is found besides is about queries. -/
theorem findings_of_more_sinks {options : Options} {extensions : List String}
    {engine extended : Engine} (built : build options extensions = .ok engine) {text : String}
    {document : CatalogDocument} (parsed : CatalogDocument.parse text = .ok document)
    (noCalls : document.calls = []) (noConstructors : document.constructors = [])
    (accepted : engine.extendText text = .ok extended) (loaded : LoadedUnit) :
    (engine.analyze loaded).diagnostics.Sublist (extended.analyze loaded).diagnostics ∧
      ∃ besides : List Diagnostic,
        (extended.analyze loaded).diagnostics.Perm
          ((engine.analyze loaded).diagnostics ++ besides) ∧
        ∀ found ∈ besides, found.rule = "S2077" := by
  obtain ⟨indexed, builtin⟩ := builtin_of_build built
  obtain ⟨added, rfl⟩ := withSinks_of_extendText parsed noCalls noConstructors accepted
  have kept := Registry.diagnostics_withSinks loaded engine.catalog
    engine.options.maxTraceDepth.toNat indexed builtin added
  have others := Registry.diagnostics_retraced loaded indexed builtin engine.catalog
    (engine.catalog.withSinks added) engine.options.maxTraceDepth.toNat
    engine.options.maxTraceDepth.toNat
  obtain ⟨besides, split⟩ := kept.exists_perm_append
  refine ⟨diagnostics_sublist kept, besides, ?_, ?_⟩
  · exact ((List.mergeSort_perm _ _).trans split).trans
      ((List.mergeSort_perm _ _).symm.append_right _)
  · -- Under the other rules both passes found equally many, so none of the rest is theirs.
    have none := (split.filter fun found => found.rule ≠ "S2077").length_eq
    rw [others, List.filter_append, List.length_append] at none
    have empty : besides.filter (fun found => found.rule ≠ "S2077") = [] :=
      List.eq_nil_of_length_eq_zero (by omega)
    intro found member
    simpa using List.filter_eq_nil_iff.mp empty found member

/-- A vendor's class is made a sink, of an engine that knows one more constructor. The query that is
    handed to it is found besides what was found before. -/
theorem findings_of_more_sinks_vendor : ∃ loaded engine extended besides,
    LoadedUnit.ofDocument faulty = .ok loaded ∧
      build ⟨none, 5⟩ ["[[],[],[\"p.Text\"]]"] = .ok engine ∧
      engine.extendText "[[[\"p.Db\",[\"run\"]]]]" = .ok extended ∧
      extended.catalog.sinkCount = engine.catalog.sinkCount + 1 ∧
      (engine.analyze loaded).diagnostics.map place =
        [("S2165", .point 1 1), ("S1698", .point 2 1), ("S2077", .point 4 1)] ∧
      (extended.analyze loaded).diagnostics.map place =
        [("S2165", .point 1 1), ("S1698", .point 2 1), ("S2077", .point 3 1),
          ("S2077", .point 4 1)] ∧
      (engine.analyze loaded).diagnostics.Sublist (extended.analyze loaded).diagnostics ∧
      (extended.analyze loaded).diagnostics.Perm
        ((engine.analyze loaded).diagnostics ++ besides) ∧
      ∀ found ∈ besides, Diagnostic.rule found = "S2077" := by
  have evaluated : (LoadedUnit.ofDocument faulty).toOption.bind (fun loaded =>
      (build ⟨none, 5⟩ ["[[],[],[\"p.Text\"]]"]).toOption.bind fun engine =>
        (engine.extendText "[[[\"p.Db\",[\"run\"]]]]").toOption.map fun extended => decide (
          extended.catalog.sinkCount = engine.catalog.sinkCount + 1 ∧
          (inOrder (engine.findings loaded)).map place =
            [("S2165", .point 1 1), ("S1698", .point 2 1), ("S2077", .point 4 1)] ∧
          (inOrder (extended.findings loaded)).map place =
            [("S2165", .point 1 1), ("S1698", .point 2 1), ("S2077", .point 3 1),
              ("S2077", .point 4 1)])) = some true := by
    decide +kernel
  have parsed : CatalogDocument.parse "[[[\"p.Db\",[\"run\"]]]]" =
      .ok ⟨[⟨"p.Db", ["run"], none⟩], [], []⟩ := by
    decide +kernel
  obtain ⟨loaded, made, evaluated⟩ := exists_ok_of_toOption_bind evaluated
  obtain ⟨engine, built, evaluated⟩ := exists_ok_of_toOption_bind evaluated
  obtain ⟨extended, grown, checked⟩ := exists_ok_of_toOption_map evaluated
  rw [← diagnostics_analyze, ← diagnostics_analyze] at checked
  obtain ⟨counted, before, after⟩ := of_decide_eq_true checked
  obtain ⟨kept, besides, split, traced⟩ :=
    findings_of_more_sinks built parsed rfl rfl grown loaded
  exact ⟨loaded, engine, extended, besides, made, built, grown, counted, before, after, kept,
    split, traced⟩

end Engine

end BugPatterns
