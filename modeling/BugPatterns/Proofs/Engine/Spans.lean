import BugPatterns.Proofs.Constancy.Forward
import BugPatterns.Proofs.Engine.Sinks
import BugPatterns.Proofs.Rule.Respan
import BugPatterns.Proofs.Unit.Scopes

/-!
# Spans are only labels

Two units that differ in the spans of their nodes alone become equal when all spans are forgotten,
and what an analysis finds commutes with forgetting them. So the same values are judged alike, and
the findings are the same apart from their spans and from the order in which spans put them
(`Engine.agree_without_spans`).
-/

namespace BugPatterns

/-- The node number alone, with no span. -/
def Site.withoutSpan (site : Site) : Site := site.respan fun _ => .unknown

/-- The document with all spans forgotten. -/
def UnitDocument.withoutSpans (document : UnitDocument) : UnitDocument :=
  document.respan fun _ => .unknown

/-- The unit with all spans forgotten. -/
def LoadedUnit.withoutSpans (loaded : LoadedUnit) : LoadedUnit := loaded.respan fun _ => .unknown

/-- The node with all spans at and below it forgotten. -/
def Node.withoutSpans (n : Node Site) : Node Site := n.relabel Site.withoutSpan

/-- The expression with all spans at and below it forgotten. -/
def Expr.withoutSpans (e : Expr Site) : Expr Site := e.relabel Site.withoutSpan

/-- The method with all spans at and below it forgotten. -/
def MethodDecl.withoutSpans (method : MethodDecl Site) : MethodDecl Site :=
  method.relabel Site.withoutSpan

/-- How far a value can be trusted, and the name and the kind of what is to blame for it. -/
def Verdict.withoutSpan (verdict : Verdict) : Constancy × Option (String × WitnessOrigin) :=
  (verdict.constancy, verdict.witness.map fun witness => (witness.name, witness.origin))

/-- All that is told about a finding except where it is. -/
def Diagnostic.withoutSpan (found : Diagnostic) :
    String × Severity × String × NodeKind × String :=
  (found.rule, found.severity, found.file, found.kind, found.message)

theorem Verdict.withoutSpan_respan (g : Span → Span) (verdict : Verdict) :
    (verdict.respan g).withoutSpan = verdict.withoutSpan := by
  unfold withoutSpan respan
  cases verdict.witness <;> rfl

namespace LoadedUnit

variable {first second : UnitDocument} {loaded other : LoadedUnit}

/-- Units that differ in spans alone are the same when spans are forgotten. -/
theorem withoutSpans_eq (same : first.withoutSpans = second.withoutSpans)
    (made : ofDocument first = .ok loaded) (madeOther : ofDocument second = .ok other) :
    loaded.withoutSpans = other.withoutSpans := by
  have here : ofDocument first.withoutSpans = _ := ofDocument_respan made
  have there : ofDocument second.withoutSpans = _ := ofDocument_respan madeOther
  rw [same, there] at here
  exact (Except.ok.inj here).symm

end LoadedUnit

/-- A verdict is, apart from its span, that on the same expression with all spans forgotten. -/
theorem Tracer.withoutSpan_classify (loaded : LoadedUnit) (catalog : Catalog) (depth : Nat)
    (context : TraceContext) (e : Expr Site) :
    (classify ⟨loaded.withoutSpans, catalog, depth⟩ (context.map MethodDecl.withoutSpans)
        e.withoutSpans).withoutSpan =
      (classify ⟨loaded, catalog, depth⟩ context e).withoutSpan := by
  have forgotten := @classify_respan (fun _ => .unknown) ⟨loaded, catalog, depth⟩ context e
  exact (congrArg Verdict.withoutSpan forgotten).trans (Verdict.withoutSpan_respan _ _)

namespace Engine

/-- Without their spans the findings on a unit are those of a pass over the unit without spans. -/
theorem perm_withoutSpan {options : Options} {extensions : List String} {engine : Engine}
    (built : build options extensions = .ok engine) (loaded : LoadedUnit) :
    ((engine.analyze loaded).diagnostics.map Diagnostic.withoutSpan).Perm
      ((engine.registry.run loaded.withoutSpans engine.catalog
        engine.options.maxTraceDepth.toNat).diagnostics.map Diagnostic.withoutSpan) := by
  obtain ⟨indexed, builtin⟩ := builtin_of_build built
  rw [LoadedUnit.withoutSpans, Registry.diagnostics_respan loaded _ _ indexed builtin, List.map_map]
  exact (List.mergeSort_perm _ _).map _

/-- Spans are only labels. Units that differ in the spans of their nodes alone have, node by node,
    the same tree. Whatever the catalog and the depth, the same expressions have the same verdict
    in the same context, with a witness of the same name and origin. And every engine has the same
    findings on them, as often, when spans are dropped. -/
theorem agree_without_spans {first second : UnitDocument}
    (same : first.withoutSpans = second.withoutSpans) {loaded other : LoadedUnit}
    (made : LoadedUnit.ofDocument first = .ok loaded)
    (madeOther : LoadedUnit.ofDocument second = .ok other) :
    loaded.nodes.map Node.withoutSpans = other.nodes.map Node.withoutSpans ∧
    (∀ catalog depth context around e d,
      context.map MethodDecl.withoutSpans = around.map MethodDecl.withoutSpans →
      e.withoutSpans = d.withoutSpans →
        (Tracer.classify ⟨loaded, catalog, depth⟩ context e).withoutSpan =
          (Tracer.classify ⟨other, catalog, depth⟩ around d).withoutSpan) ∧
    ∀ options extensions engine, build options extensions = .ok engine →
      ((engine.analyze loaded).diagnostics.map Diagnostic.withoutSpan).Perm
        ((engine.analyze other).diagnostics.map Diagnostic.withoutSpan) := by
  have forgotten := LoadedUnit.withoutSpans_eq same made madeOther
  refine ⟨?_, ?_, ?_⟩
  · have nodes := congrArg LoadedUnit.nodes forgotten
    rw [LoadedUnit.withoutSpans, LoadedUnit.withoutSpans, LoadedUnit.nodes_respan,
      LoadedUnit.nodes_respan] at nodes
    exact nodes
  · intro catalog depth context around e d sameContext sameExpr
    have here := Tracer.withoutSpan_classify loaded catalog depth context e
    have there := Tracer.withoutSpan_classify other catalog depth around d
    rw [forgotten, sameContext, sameExpr] at here
    exact here.symm.trans there
  · intro options extensions engine built
    have here := perm_withoutSpan built loaded
    have there := perm_withoutSpan built other
    rw [forgotten] at here
    exact here.trans there.symm

/-- Two texts are compared, at some place. -/
def textComparison (span : Span) (op : BinaryOp) : Expr Span :=
  .binary span op (.ident span "a" none (some "java.lang.String"))
    (.ident .unknown "b" none (some "java.lang.String")) none

/-- Texts are compared twice, the second time in an earlier line. -/
def comparing : UnitDocument where
  model := .empty
  tree := ⟨"E.java", none, [⟨.unknown, .ordinary, some "E", some "p.E", [
    .field ⟨.unknown, "same", none, none, some (textComparison (.point 9 1) .equalTo)⟩,
    .field ⟨.unknown, "other", none, none, some (textComparison (.point 2 1) .notEqualTo)⟩]⟩]⟩

/-- An operand of the first comparison. -/
def comparingOperand : Expr Site := .ident ⟨4, .point 9 1⟩ "a" none (some "java.lang.String")

/-- With all spans missing the findings come in the other order. -/
theorem agree_without_spans_comparing : ∃ loaded other engine,
    LoadedUnit.ofDocument comparing = .ok loaded ∧
      LoadedUnit.ofDocument comparing.withoutSpans = .ok other ∧
      build ⟨some ["S1698"], 32⟩ [] = .ok engine ∧
      .expr comparingOperand ∈ loaded.nodes ∧ .expr comparingOperand.withoutSpans ∈ other.nodes ∧
      Tracer.classify ⟨loaded, .empty, 32⟩ none comparingOperand =
        .blame "a" (.point 9 1) .unresolved ∧
      (Tracer.classify ⟨loaded, .empty, 32⟩ none comparingOperand).withoutSpan =
        (Tracer.classify ⟨other, .empty, 32⟩ none comparingOperand.withoutSpans).withoutSpan ∧
      (engine.analyze loaded).diagnostics.map (·.kind) = [.notEqualTo, .equalTo] ∧
      (engine.analyze other).diagnostics.map (·.kind) = [.equalTo, .notEqualTo] ∧
      ((engine.analyze loaded).diagnostics.map Diagnostic.withoutSpan).Perm
        ((engine.analyze other).diagnostics.map Diagnostic.withoutSpan) := by
  have evaluated : (LoadedUnit.ofDocument comparing).toOption.bind (fun loaded =>
      (LoadedUnit.ofDocument comparing.withoutSpans).toOption.bind fun other =>
        (build ⟨some ["S1698"], 32⟩ []).toOption.map fun engine =>
          decide ((inOrder (engine.findings loaded)).map (·.kind) = [.notEqualTo, .equalTo] ∧
            (inOrder (engine.findings other)).map (·.kind) = [.equalTo, .notEqualTo])) =
      some true := by
    decide +kernel
  obtain ⟨loaded, made, evaluated⟩ := exists_ok_of_toOption_bind evaluated
  obtain ⟨other, madeOther, evaluated⟩ := exists_ok_of_toOption_bind evaluated
  obtain ⟨engine, built, orders⟩ := exists_ok_of_toOption_map evaluated
  rw [← diagnostics_analyze, ← diagnostics_analyze, decide_eq_true_eq] at orders
  have same : comparing.withoutSpans = comparing.withoutSpans.withoutSpans := rfl
  obtain ⟨verdicts, findings⟩ := (agree_without_spans same made madeOther).2
  have listed : .expr comparingOperand ∈ loaded.nodes := by
    rw [LoadedUnit.nodes, LoadedUnit.unit_ofDocument made]
    exact List.mem_of_getElem? (i := 4) rfl
  have listedOther : .expr comparingOperand.withoutSpans ∈ other.nodes := by
    rw [LoadedUnit.nodes, LoadedUnit.unit_ofDocument madeOther]
    exact List.mem_of_getElem? (i := 4) rfl
  exact ⟨loaded, other, engine, made, madeOther, built, listed, listedOther, rfl,
    verdicts .empty 32 none none comparingOperand comparingOperand.withoutSpans rfl rfl,
    orders.1, orders.2, findings _ _ _ built⟩

end Engine

end BugPatterns
