import BugPatterns.Proofs.Constancy.Depth
import BugPatterns.Proofs.Engine.Flagged

/-!
# Deeper traces

Only one rule traces values. A verdict that blames nothing survives a larger depth, so with it that
rule flags no further calls, and the other rules find what they found
(`Engine.findings_of_deeper`).
-/

namespace BugPatterns

/-- With more depth fewer nodes are flagged, and none that were not. -/
theorem Registry.flagged_sublist {registry : Registry} (loaded : LoadedUnit) (catalog : Catalog)
    (indexed : registry.Indexed) (builtin : ∀ check ∈ registry.checks, check ∈ builtinChecks)
    (key : String) {depth more : Nat} (le : depth ≤ more) :
    (registry.flagged key loaded catalog more).Sublist
      (registry.flagged key loaded catalog depth) :=
  flagged_sublist_of_settled loaded catalog indexed builtin key rfl
    (Tracer.classify_settledBy ⟨loaded, catalog, depth⟩ le)

namespace Engine

/-- The depth has no part in which checks an engine has. -/
theorem ofOptions_withDepth {rules : Option (List String)} {depth : UInt64} {engine : Engine}
    (made : ofOptions ⟨rules, depth⟩ = .ok engine) (more : UInt64) :
    ofOptions ⟨rules, more⟩ = .ok { engine with options := ⟨rules, more⟩ } := by
  obtain ⟨checks, registry, chosen, registered, rfl⟩ := ofOptions_eq_ok_iff.mp made
  exact ofOptions_eq_ok_iff.mpr ⟨checks, registry, chosen, registered, rfl⟩

/-- More depth only removes findings. A verdict that is not unsafe is the same with more depth,
    whatever it is about. So whatever the rules and the catalog, the rule that traces values flags
    no calls with more depth that it did not flag before, and the findings of the other rules are
    the same. -/
theorem findings_of_deeper {depth more : UInt64} (le : depth ≤ more) :
    (∀ loaded catalog context e,
      (Tracer.classify ⟨loaded, catalog, depth.toNat⟩ context e).isUnsafe = false →
        Tracer.classify ⟨loaded, catalog, more.toNat⟩ context e =
          Tracer.classify ⟨loaded, catalog, depth.toNat⟩ context e) ∧
    ∀ rules shallow, ofOptions ⟨rules, depth⟩ = .ok shallow →
      ∃ deep, ofOptions ⟨rules, more⟩ = .ok deep ∧
        ∀ catalog loaded,
          (flagged { deep with catalog := catalog } "S2077" loaded).Sublist
            (flagged { shallow with catalog := catalog } "S2077" loaded) ∧
          (analyze { deep with catalog := catalog } loaded).diagnostics.filter
              (fun found => found.rule ≠ "S2077") =
            (analyze { shallow with catalog := catalog } loaded).diagnostics.filter
              (fun found => found.rule ≠ "S2077") := by
  have le' : depth.toNat ≤ more.toNat := UInt64.le_iff_toNat_le.mp le
  constructor
  · intro loaded catalog context e harmless
    exact Tracer.classify_settledBy ⟨loaded, catalog, depth.toNat⟩ le' context e harmless
  · intro rules shallow made
    obtain ⟨checks, -, chosen, -⟩ := ofOptions_eq_ok_iff.mp made
    obtain ⟨known, -⟩ := chooseChecks_eq_ok_iff.mp chosen
    obtain ⟨registry, same, indexed, checks⟩ := ofOptions_eq_ok known
    obtain rfl := Except.ok.inj (made.symm.trans same)
    have builtin := checks_builtin checks
    refine ⟨_, ofOptions_withDepth made more, fun catalog loaded => ⟨?_, ?_⟩⟩
    · exact Registry.flagged_sublist loaded catalog indexed builtin "S2077" le'
    · exact filter_diagnostics_congr (Registry.diagnostics_retraced loaded indexed builtin catalog
        catalog depth.toNat more.toNat)

/-- With one step and with the largest depth there is, for all rules. The query that takes two steps
    is no longer flagged, the one that takes one step has the same verdict, and the findings of the
    other rules are the same. -/
theorem findings_of_deeper_standard : ∃ shallow deep loaded method e,
    ofOptions ⟨none, 1⟩ = .ok shallow ∧ ofOptions ⟨none, 18446744073709551615⟩ = .ok deep ∧
      LoadedUnit.ofDocument faulty = .ok loaded ∧ .expr e ∈ MethodDecl.bodyNodes method ∧
      Tracer.classify ⟨loaded, .builtin, 1⟩ (some method) e = .constant ∧
      Tracer.classify ⟨loaded, .builtin, 18446744073709551615⟩ (some method) e = .constant ∧
      (flagged shallow "S2077" loaded).map Node.span = [.point 6 1, .point 5 1, .point 4 1] ∧
      (flagged deep "S2077" loaded).map Node.span = [.point 5 1, .point 4 1] ∧
      (flagged deep "S2077" loaded).Sublist (flagged shallow "S2077" loaded) ∧
      (analyze deep loaded).diagnostics.filter (fun found => found.rule ≠ "S2077") =
        (analyze shallow loaded).diagnostics.filter (fun found => found.rule ≠ "S2077") := by
  have evaluated : ((ofOptions ⟨none, 1⟩).toOption.bind fun shallow =>
      (ofOptions ⟨none, 18446744073709551615⟩).toOption.bind fun deep =>
        (LoadedUnit.ofDocument faulty).toOption.bind fun loaded =>
          (loaded.declarations.method? "p.Q#run").bind fun method =>
            (LoadedUnit.heldExpr? method 13).map fun e => decide (
              Tracer.classify ⟨loaded, .builtin, 1⟩ (some method) e = .constant ∧
              (flagged shallow "S2077" loaded).map Node.span =
                [.point 6 1, .point 5 1, .point 4 1] ∧
              (flagged deep "S2077" loaded).map Node.span = [.point 5 1, .point 4 1])) =
      some true := by
    decide +kernel
  obtain ⟨shallow, made, evaluated⟩ := exists_ok_of_toOption_bind evaluated
  obtain ⟨deep, madeDeep, evaluated⟩ := exists_ok_of_toOption_bind evaluated
  obtain ⟨loaded, method, e, ready, -, held, checked⟩ := LoadedUnit.exists_of_evaluated evaluated
  obtain ⟨constant, before, after⟩ := of_decide_eq_true checked
  have le : (1 : UInt64) ≤ 18446744073709551615 := by decide
  obtain ⟨verdicts, findings⟩ := findings_of_deeper le
  have harmless : (Tracer.classify ⟨loaded, .builtin, 1⟩ (some method) e).isUnsafe = false := by
    rw [constant]
    rfl
  have settled := (verdicts loaded .builtin (some method) e harmless).trans constant
  obtain ⟨same, madeSame, found⟩ := findings none shallow made
  obtain rfl : same = deep := Except.ok.inj (madeSame.symm.trans madeDeep)
  -- Both engines have the built-in catalog, with which they are compared.
  obtain ⟨-, registry, -, -, rfl⟩ := ofOptions_eq_ok_iff.mp made
  obtain ⟨-, registry, -, -, rfl⟩ := ofOptions_eq_ok_iff.mp madeDeep
  obtain ⟨fewer, others⟩ := found .builtin loaded
  exact ⟨_, _, loaded, method, e, made, madeDeep, ready, held, constant, settled, before, after,
    fewer, others⟩

end Engine

end BugPatterns
