import BugPatterns.Proofs.Catalog.Extension
import BugPatterns.Proofs.Constancy.Depth
import BugPatterns.Proofs.Engine.Flagged

/-!
# More constructors

A class whose constructors are said to build their object from the arguments has traces go on into
these, where they gave up before. A verdict that blames nothing was reached without giving up, so it
stays, and the rule for queries flags no further calls (`Engine.findings_of_more_constructors`).
-/

namespace BugPatterns

/-- Of one unit, a tracer with more constructors knows all that one with fewer knows. -/
theorem Tracer.knowsFewer_withConstructors (loaded : LoadedUnit) (catalog : Catalog)
    (depth : Nat) (added : List String) :
    KnowsFewer ⟨loaded, catalog, depth⟩ ⟨loaded, catalog.withConstructors added, depth⟩ where
  loaded := rfl
  calls := rfl
  constructors := catalog.constructors_subset added

/-- The findings of the rule for queries stand where the flagged calls stand, ordered by where they
    start. -/
theorem Engine.spans_of_flagged {engine : Engine} (indexed : engine.registry.Indexed)
    (builtin : ∀ check ∈ engine.registry.checks, check ∈ builtinChecks) (loaded : LoadedUnit) :
    ((engine.analyze loaded).diagnostics.filter (fun found => found.rule = "S2077")).map (·.span) =
      ((engine.flagged "S2077" loaded).map Node.span).mergeSort Span.startsNoLater := by
  have sorted (found : List Diagnostic) :
      (found.mergeSort fun a b => a.span.startsNoLater b.span).map (·.span) =
        (found.map (·.span)).mergeSort Span.startsNoLater :=
    List.map_mergeSort fun _ _ _ _ => rfl
  rw [filter_diagnostics_analyze, sorted, findings,
    Registry.spans_of_flagged loaded engine.catalog indexed builtin]
  rfl

namespace Engine

/-- A document of nothing but constructors only removes findings. With the extended catalog each
    verdict that was not unsafe is the same, whatever it is about and however deeply values may be
    traced. So, whatever the rules, the calls that are flagged were flagged before, the findings
    about queries stand where such findings stood before, and the other findings are the same. -/
theorem findings_of_more_constructors {catalog extended : Catalog} {document : CatalogDocument}
    (noSinks : document.sinks = []) (noCalls : document.calls = [])
    (accepted : catalog.extend document = .ok extended) :
    (∀ loaded depth context e,
      (Tracer.classify ⟨loaded, catalog, depth⟩ context e).isUnsafe = false →
        Tracer.classify ⟨loaded, extended, depth⟩ context e =
          Tracer.classify ⟨loaded, catalog, depth⟩ context e) ∧
    ∀ options engine, ofOptions options = .ok engine → ∀ loaded,
      (flagged { engine with catalog := extended } "S2077" loaded).Sublist
        (flagged { engine with catalog := catalog } "S2077" loaded) ∧
      (((analyze { engine with catalog := extended } loaded).diagnostics.filter
          (fun found => found.rule = "S2077")).map (·.span)).Sublist
        (((analyze { engine with catalog := catalog } loaded).diagnostics.filter
          (fun found => found.rule = "S2077")).map (·.span)) ∧
      (analyze { engine with catalog := extended } loaded).diagnostics.filter
          (fun found => found.rule ≠ "S2077") =
        (analyze { engine with catalog := catalog } loaded).diagnostics.filter
          (fun found => found.rule ≠ "S2077") := by
  obtain rfl := Catalog.withConstructors_of_extend noSinks noCalls accepted
  have settled (loaded : LoadedUnit) (depth : Nat) :=
    (Tracer.knowsFewer_withConstructors loaded catalog depth
      document.constructors).classify_settledBy rfl
  refine ⟨fun loaded depth context e => settled loaded depth context e, ?_⟩
  intro options engine made loaded
  obtain ⟨checks, -, chosen, -⟩ := ofOptions_eq_ok_iff.mp made
  obtain ⟨known, -⟩ := chooseChecks_eq_ok_iff.mp chosen
  obtain ⟨registry, same, indexed, checks⟩ := ofOptions_eq_ok known
  obtain rfl := Except.ok.inj (made.symm.trans same)
  have builtin := checks_builtin checks
  have sinks : (catalog.withConstructors document.constructors).sinks = catalog.sinks := rfl
  have fewer := Registry.flagged_sublist_of_settled loaded catalog indexed builtin "S2077" sinks
    (settled loaded options.maxTraceDepth.toNat)
  refine ⟨fewer, ?_, ?_⟩
  · rw [spans_of_flagged indexed builtin, spans_of_flagged indexed builtin]
    exact mergeSort_sublist Span.startsNoLater_trans Span.startsNoLater_total (fewer.map Node.span)
  · exact filter_diagnostics_congr (Registry.diagnostics_retraced loaded indexed builtin catalog _
      options.maxTraceDepth.toNat options.maxTraceDepth.toNat)

/-- One constructor is new to the built-in catalog, the other one is known already. The query that
    is made with the new one is no longer flagged, and the others have the same verdicts. -/
theorem findings_of_more_constructors_text : ∃ extended engine loaded method e,
    Catalog.builtin.extend ⟨[], [], ["p.Text", "java.lang.StringBuilder"]⟩ = .ok extended ∧
      extended.constructors ≠ Catalog.builtin.constructors ∧
      ofOptions ⟨none, 32⟩ = .ok engine ∧ LoadedUnit.ofDocument faulty = .ok loaded ∧
      .expr e ∈ MethodDecl.bodyNodes method ∧
      Tracer.classify ⟨loaded, .builtin, 32⟩ (some method) e = .constant ∧
      Tracer.classify ⟨loaded, extended, 32⟩ (some method) e = .constant ∧
      (analyze { engine with catalog := .builtin } loaded).diagnostics.map place =
        [("S2165", .point 1 1), ("S1698", .point 2 1), ("S2077", .point 4 1),
          ("S2077", .point 5 1)] ∧
      (analyze { engine with catalog := extended } loaded).diagnostics.map place =
        [("S2165", .point 1 1), ("S1698", .point 2 1), ("S2077", .point 4 1)] ∧
      (flagged { engine with catalog := extended } "S2077" loaded).Sublist
        (flagged { engine with catalog := .builtin } "S2077" loaded) ∧
      (((analyze { engine with catalog := extended } loaded).diagnostics.filter
          (fun found => found.rule = "S2077")).map (·.span)).Sublist
        (((analyze { engine with catalog := .builtin } loaded).diagnostics.filter
          (fun found => found.rule = "S2077")).map (·.span)) ∧
      (analyze { engine with catalog := extended } loaded).diagnostics.filter
          (fun found => found.rule ≠ "S2077") =
        (analyze { engine with catalog := .builtin } loaded).diagnostics.filter
          (fun found => found.rule ≠ "S2077") := by
  have evaluated : (Catalog.builtin.extend
      ⟨[], [], ["p.Text", "java.lang.StringBuilder"]⟩).toOption.bind (fun extended =>
        (ofOptions ⟨none, 32⟩).toOption.bind fun engine =>
          (LoadedUnit.ofDocument faulty).toOption.bind fun loaded =>
            (loaded.declarations.method? "p.Q#run").bind fun method =>
              (LoadedUnit.heldExpr? method 13).map fun e => decide (
                extended.constructors ≠ Catalog.builtin.constructors ∧
                Tracer.classify ⟨loaded, .builtin, 32⟩ (some method) e = .constant ∧
                (inOrder (findings { engine with catalog := .builtin } loaded)).map place =
                  [("S2165", .point 1 1), ("S1698", .point 2 1), ("S2077", .point 4 1),
                    ("S2077", .point 5 1)] ∧
                (inOrder (findings { engine with catalog := extended } loaded)).map place =
                  [("S2165", .point 1 1), ("S1698", .point 2 1), ("S2077", .point 4 1)])) =
      some true := by
    decide +kernel
  obtain ⟨extended, accepted, evaluated⟩ := exists_ok_of_toOption_bind evaluated
  obtain ⟨engine, made, evaluated⟩ := exists_ok_of_toOption_bind evaluated
  obtain ⟨loaded, method, e, ready, -, held, checked⟩ := LoadedUnit.exists_of_evaluated evaluated
  rw [← diagnostics_analyze, ← diagnostics_analyze] at checked
  obtain ⟨grown, constant, before, after⟩ := of_decide_eq_true checked
  obtain ⟨verdicts, found⟩ := findings_of_more_constructors rfl rfl accepted
  have harmless : (Tracer.classify ⟨loaded, .builtin, 32⟩ (some method) e).isUnsafe = false := by
    rw [constant]
    rfl
  have settled := (verdicts loaded 32 (some method) e harmless).trans constant
  exact ⟨extended, engine, loaded, method, e, accepted, grown, made, ready, held, constant,
    settled, before, after, found _ engine made loaded⟩

end Engine

end BugPatterns
