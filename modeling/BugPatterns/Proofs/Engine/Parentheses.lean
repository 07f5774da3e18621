import BugPatterns.Proofs.Constancy.Forward
import BugPatterns.Proofs.Constancy.UnwrappedTrace
import BugPatterns.Proofs.Engine.Sinks

/-!
# Parentheses are transparent

Parentheses can be added to the expressions of a unit, except around what is called. Whatever the
catalog and the depth, expressions have the same verdict then, and the rule that traces queries has
the same findings (`Engine.agree_without_parens`).
-/

namespace BugPatterns

variable {added : Site → Bool} {r : Nat → Nat}

/-- The surroundings without added parentheses. -/
def Surroundings.unwrap (added : Site → Bool) (r : Nat → Nat) (here : Surroundings) :
    Surroundings :=
  { here with
    loaded := here.loaded.unwrap added r
    scopes := here.scopes.map (Scope.unwrap added r) }

namespace Rule

variable {here : Surroundings}

/-- Parentheses that were added are no call. -/
theorem sqlInjection_added {n : Node Site} (marked : n.isAdded added = true) :
    sqlInjection.visit here n = .nothing := by
  obtain ⟨label, inner, type, rfl, -⟩ := Node.exists_of_isAdded marked
  rfl

theorem mem_nodes_of_sinkOfCall? {call query : Expr Site} {sink : Sink}
    (inUnit : .expr call ∈ here.loaded.nodes)
    (reached : sinkOfCall? here call = some (sink, query)) :
    .expr query ∈ here.loaded.nodes := by
  unfold sinkOfCall? at reached
  split at reached
  · obtain ⟨receiver, -, found⟩ := Option.bind_eq_some_iff.mp reached
    obtain ⟨sink, -, same⟩ := Option.bind_eq_some_iff.mp found
    cases same
    exact LoadedUnit.mem_nodes_of_child inUnit (List.mem_cons_of_mem _ List.mem_cons_self)
  · cases reached

section Wraps

variable (wraps : here.loaded.unit.Wraps added)
include wraps

/-- A call reaches the same sink with the same query. -/
theorem sinkOfCall?_unwrap {call : Expr Site} (inUnit : .expr call ∈ here.loaded.nodes)
    (kept : call.isAdded added = false) :
    sinkOfCall? (here.unwrap added r) (call.unwrap added (Site.renumber r)) =
      (sinkOfCall? here call).map fun (sink, query) =>
        (sink, query.unwrap added (Site.renumber r)) := by
  cases call with
  | call label callee args symbol type =>
      have direct := wraps.callee label callee args symbol type inUnit
      have calleeInUnit : .expr callee ∈ here.loaded.nodes :=
        LoadedUnit.mem_nodes_of_child inUnit List.mem_cons_self
      cases callee with
      | select _ target name =>
          cases args with
          | nil => rfl
          | cons query args =>
              have typed : (here.unwrap added r).loaded.typeOf
                  (target.unwrap added (Site.renumber r)) = here.loaded.typeOf target :=
                LoadedUnit.typeOf_unwrap wraps
                  (LoadedUnit.mem_nodes_of_child calleeInUnit List.mem_cons_self)
              have catalog : (here.unwrap added r).catalog = here.catalog := rfl
              have model : (here.unwrap added r).model = here.model := rfl
              simp only [Expr.unwrap, Expr.unwrapAll, sinkOfCall?, typed, catalog, model,
                Option.bind_eq_bind]
              cases here.loaded.typeOf target with
              | none => rfl
              | some receiver =>
                  simp only [Option.bind_some]
                  cases here.catalog.sink? here.model receiver name <;> rfl
      | paren inside inner _ =>
          have direct : added inside = false := direct
          simp only [Expr.unwrap, direct]
          rfl
      | _ => rfl
  | paren label inner type =>
      have kept : added label = false := kept
      rw [Expr.unwrap_of_kept kept]
      rfl
  | _ => rfl

/-- The verdict on a part of the unit is the same. -/
theorem classify_unwrap (coherent : here.loaded.Coherent) (injective : Function.Injective r)
    {n : Node Site} (placed : (here.scopes, n) ∈ here.loaded.scopedNodes) {e : Expr Site}
    (inUnit : .expr e ∈ here.loaded.nodes) :
    (here.unwrap added r).classify (e.unwrap added (Site.renumber r)) = here.classify e := by
  let tracer : Tracer := ⟨here.loaded, here.catalog, here.maxDepth⟩
  have around : (here.unwrap added r).enclosingMethod =
      Tracer.unwrapContext added r here.enclosingMethod := by
    unfold Surroundings.enclosingMethod Surroundings.unwrap
    cases here.scopes with
    | nil => rfl
    | cons scope scopes => exact scope.method?_unwrap
  have listed : tracer.InUnit here.enclosingMethod := by
    intro method encloses
    obtain ⟨scope, first, same⟩ := Option.bind_eq_some_iff.mp encloses
    cases scope with
    | method decl =>
        obtain rfl := Option.some.inj same
        exact LoadedUnit.mem_nodes_of_scope placed (List.mem_of_mem_head? first)
    | classDecl => cases same
  have same := tracer.classify_unwrap coherent wraps injective listed inUnit
  rw [Surroundings.classify, around]
  exact same

/-- A node that was not added gets the same answer. -/
theorem sqlInjection_unwrap (coherent : here.loaded.Coherent) (injective : Function.Injective r)
    {n : Node Site} (placed : (here.scopes, n) ∈ here.loaded.scopedNodes)
    (kept : n.isAdded added = false) :
    sqlInjection.visit (here.unwrap added r) (n.unwrap added (Site.renumber r)) =
      sqlInjection.visit here n := by
  cases n with
  | expr call =>
      have inUnit := LoadedUnit.mem_nodes_of_scoped placed
      have about (message : String) :
          Report.about (.expr (call.unwrap added (Site.renumber r))) message =
            .about (.expr call) message := by
        rw [Report.about, ← Node.unwrap_expr, Node.span_unwrap kept, Node.kind_unwrap kept,
          Report.about]
      simp only [sqlInjection, Node.unwrap_expr, sinkOfCall?_unwrap wraps inUnit kept]
      cases reached : sinkOfCall? here call with
      | none => rfl
      | some pair =>
          obtain ⟨sink, query⟩ := pair
          have same := classify_unwrap wraps coherent injective placed
            (mem_nodes_of_sinkOfCall? inUnit reached)
          simp only [Option.map_some, same, about]
  | _ => rfl

end Wraps

end Rule

namespace Registry

/-- The showing without added parentheses. -/
def Showing.unwrap (added : Site → Bool) (r : Nat → Nat) (showing : Showing) : Showing where
  check := showing.check
  here := showing.here.unwrap added r
  node := showing.node.unwrap added (Site.renumber r)

variable {registry : Registry} {loaded : LoadedUnit} (catalog : Catalog) (depth : Nat)

/-- The nodes that were not added are shown to the same checks. -/
theorem showings_unwrap : registry.showings (loaded.unwrap added r) catalog depth =
    ((registry.showings loaded catalog depth).filter fun showing =>
      !showing.node.isAdded added).map (Showing.unwrap added r) := by
  have placed : (loaded.unwrap added r).unit.tree.underScopes Scope.ofNode? [] = _ :=
    loaded.scopedNodes_unwrap
  unfold showings
  rw [placed, List.flatMap_map, List.filter_flatMap, List.map_flatMap]
  refine (flatMap_eq_flatMap_filter fun placed _ => ?_).symm
  cases marked : placed.2.isAdded added with
  | true => simp [List.filter_map, Function.comp_def, marked]
  | false =>
      simp only [List.filter_map, Function.comp_def, marked, Bool.not_false, List.filter_true,
        List.map_map, unwrapPlaced, Node.kind_unwrap marked, if_true]
      rfl

/-- A pass has the same findings on queries. -/
theorem diagnostics_unwrap (indexed : registry.Indexed)
    (builtin : ∀ check ∈ registry.checks, check ∈ builtinChecks) (coherent : loaded.Coherent)
    (wraps : loaded.unit.Wraps added) (injective : Function.Injective r) :
    (registry.run (loaded.unwrap added r) catalog depth).diagnostics.filter
        (fun found => found.rule = "S2077") =
      (registry.run loaded catalog depth).diagnostics.filter
        fun found => found.rule = "S2077" := by
  rw [diagnostics_run, diagnostics_run, showings_unwrap, List.flatMap_map, List.filter_flatMap,
    List.filter_flatMap]
  refine (flatMap_eq_flatMap_filter fun showing shown => ?_).symm
  have member := builtin _ (check_mem_of_showing loaded catalog depth indexed shown)
  obtain ⟨⟨scopes, n⟩, met, listed⟩ := List.mem_flatMap.mp shown
  obtain ⟨check, -, rfl⟩ := List.mem_map.mp listed
  by_cases traces : check.key = "S2077"
  · obtain rfl := Rule.eq_sqlInjection check member traces
    cases marked : n.isAdded added with
    | true =>
        simp [Showing.answer, Showing.diagnostics, Rule.sqlInjection_added marked, Answer.nothing,
          Answer.ofReports]
    | false =>
        have answer : (Showing.unwrap added r ⟨Rule.sqlInjection, ⟨loaded, catalog, depth, scopes⟩,
            n⟩).answer = Rule.sqlInjection.visit ⟨loaded, catalog, depth, scopes⟩ n :=
          Rule.sqlInjection_unwrap wraps coherent injective met marked
        rw [Bool.not_false, if_pos rfl, answer]
        rfl
  · simp [Showing.diagnostics, List.filter_map, Function.comp_def, traces, Showing.unwrap]

end Registry

namespace Engine

open LoadedUnit

/-- Parentheses are transparent. Take a document and one that has it with parentheses added to any
    of its expressions, except around what is called. When both are loaded, the nodes of the one are
    those of the other that were not added, under the same scopes, with the same spans and other
    numbers. Whatever the catalog and the depth, an expression has the same verdict as the one that
    it was made of, with the same witness, in the same method; a call that was not added gets the
    same answer from the rule that traces queries; and every engine has the same findings of that
    rule on both, in the same order. -/
theorem agree_without_parens {document wrapped : UnitDocument} {added : Site → Bool}
    (adds : document.AddsParens wrapped added) {loaded loadedWrapped : LoadedUnit}
    (made : ofDocument document = .ok loaded)
    (madeWrapped : ofDocument wrapped = .ok loadedWrapped) :
    ∃ r : Nat → Nat, Function.Injective r ∧
      loaded.scopedNodes =
        (loadedWrapped.scopedNodes.filter fun placed => !placed.2.isAdded added).map
          (unwrapPlaced added r) ∧
      (∀ catalog depth context e, (∀ method ∈ context, .method method ∈ loadedWrapped.nodes) →
        .expr e ∈ loadedWrapped.nodes →
          Tracer.classify ⟨loaded, catalog, depth⟩ (Tracer.unwrapContext added r context)
              (e.unwrap added (Site.renumber r)) =
            Tracer.classify ⟨loadedWrapped, catalog, depth⟩ context e) ∧
      (∀ catalog depth scopes n, (scopes, n) ∈ loadedWrapped.scopedNodes →
        n.isAdded added = false →
          Rule.sqlInjection.visit ⟨loaded, catalog, depth, scopes.map (Scope.unwrap added r)⟩
              (n.unwrap added (Site.renumber r)) =
            Rule.sqlInjection.visit ⟨loadedWrapped, catalog, depth, scopes⟩ n) ∧
      ∀ options extensions engine, build options extensions = .ok engine →
        (engine.analyze loaded).diagnostics.filter (fun found => found.rule = "S2077") =
          (engine.analyze loadedWrapped).diagnostics.filter
            (fun found => found.rule = "S2077") := by
  have coherent := coherent_ofDocument madeWrapped
  obtain ⟨wraps, r, injective, rfl⟩ := ofDocument_unwrap adds made madeWrapped
  refine ⟨r, injective, loadedWrapped.scopedNodes_unwrap, ?_, ?_, ?_⟩
  · intro catalog depth context e listed inUnit
    let tracer : Tracer := ⟨loadedWrapped, catalog, depth⟩
    exact tracer.classify_unwrap coherent wraps injective listed inUnit
  · intro catalog depth scopes n placed kept
    let here : Surroundings := ⟨loadedWrapped, catalog, depth, scopes⟩
    exact @Rule.sqlInjection_unwrap added r here wraps coherent injective n placed kept
  · intro options extensions engine built
    obtain ⟨indexed, builtin⟩ := builtin_of_build built
    exact filter_diagnostics_congr
      (Registry.diagnostics_unwrap _ _ indexed builtin coherent wraps injective)

/-- Where parentheses are added. -/
def parensSpan : Span := ⟨9, 1, 9, 9⟩

/-- The expression in parentheses. -/
def inParens (e : Expr Span) : Expr Span := .paren parensSpan e e.type

/-- A query is put together from the parameter and run; `wrap` is applied to expressions that are
    not called. -/
def querying (wrap : Expr Span → Expr Span) : UnitDocument := .ofBody [
  .varDecl ⟨.unknown, "s", some "p.Q#m.s", none, some (wrap (.variable 1 "p"))⟩,
  .expression .unknown (.assign .unknown .plus (wrap (.variable 2 "s"))
    (wrap (wrap (.literal .unknown .string "x" none))) none),
  .expression .unknown (wrap (.call (.point 3 1)
    (.select .unknown (wrap (.ident .unknown "db" none (some "java.sql.Statement"))) "execute" none
      none)
    [wrap (.variable 3 "s")] none none))]

/-- With and without parentheses around its parts, the query is reported in the same words. -/
theorem agree_without_parens_querying : ∃ loaded loadedWrapped engine,
    ofDocument (querying id) = .ok loaded ∧ ofDocument (querying inParens) = .ok loadedWrapped ∧
      build ⟨some ["S2077"], 32⟩ [] = .ok engine ∧
      loadedWrapped.nodes.length = loaded.nodes.length + 7 ∧
      (engine.analyze loaded).diagnostics.filter (fun found => found.rule = "S2077") =
        (engine.analyze loadedWrapped).diagnostics.filter (fun found => found.rule = "S2077") ∧
      (engine.analyze loaded).diagnostics.map (fun found => (found.span, found.message)) =
        [(.point 3 1,
          "\"p\" is provided externally to the method and not sanitized before use.")] := by
  have evaluated : (ofDocument (querying id)).toOption.bind (fun loaded =>
      (ofDocument (querying inParens)).toOption.bind fun loadedWrapped =>
        (build ⟨some ["S2077"], 32⟩ []).toOption.map fun engine =>
          decide (loadedWrapped.nodes.length = loaded.nodes.length + 7) &&
            decide ((engine.analyze loaded).diagnostics.map
                (fun found => (found.span, found.message)) =
              [(.point 3 1,
                "\"p\" is provided externally to the method and not sanitized before use.")])) =
      some true := by
    decide +kernel
  obtain ⟨loaded, made, evaluated⟩ := exists_ok_of_toOption_bind evaluated
  obtain ⟨loadedWrapped, madeWrapped, evaluated⟩ := exists_ok_of_toOption_bind evaluated
  obtain ⟨engine, built, checked⟩ := exists_ok_of_toOption_map evaluated
  rw [Bool.and_eq_true, decide_eq_true_eq, decide_eq_true_eq] at checked
  have adds : (querying id).AddsParens (querying inParens) fun site => site.span = parensSpan := {
    wraps := by decide +kernel
    tree := rfl
    model := rfl }
  obtain ⟨r, -, -, -, -, findings⟩ := agree_without_parens adds made madeWrapped
  exact ⟨loaded, loadedWrapped, engine, made, madeWrapped, built, checked.1,
    findings _ _ _ built, checked.2⟩

end Engine

end BugPatterns
