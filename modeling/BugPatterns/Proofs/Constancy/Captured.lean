import BugPatterns.Catalog.Builtin
import BugPatterns.Proofs.Constancy.Reaching

/-!
# Updates of captured variables

What is added to a local variable counts: the verdict on a use of the variable is no better than
those on the updates that reach it (`Tracer.rank_le_settle`). A method that captures the variable of
another one, and gives it no value of its own, is not searched for updates either; the definitions
of the method that declares the variable take their place, and their updates count instead
(`Tracer.updates_count`).
-/

namespace BugPatterns

namespace Tracer

variable {tracer : Tracer} {method : MethodDecl Site} {use : Expr Site} {symbol : SymbolId}

/-- What is settled by definitions is no better than the updates among them. -/
theorem rank_le_settle (value : Expr Site → Verdict) {found : Definitions} {undefined : Verdict}
    (blamed : undefined.constancy = .dynamicUnsafe) {u : Expr Site} (added : u ∈ found.updates) :
    (value u).constancy.rank ≤ ((settle value found).getD undefined).constancy.rank := by
  obtain ⟨latest, updates⟩ := found
  cases latest with
  | none =>
      show _ ≤ undefined.constancy.rank
      rw [blamed]
      exact Verdict.rank_le_two _
  | some latest => exact Verdict.rank_item_le_joinAll value added (value latest)

/-- The verdict on a use is settled by the definitions that are found for it. -/
theorem classify_of_definitionsOf (coherent : tracer.loaded.Coherent)
    (deep : tracer.loaded.nodes.length < tracer.maxDepth)
    (listed : .method method ∈ tracer.loaded.nodes) (held : .expr use ∈ method.bodyNodes)
    (isUse : tracer.loaded.localUse? use = some symbol) {found : Option Definitions}
    {context : TraceContext}
    (definitions : tracer.definitionsOf (some method) use symbol = (found, context)) :
    tracer.classify (some method) use =
      (found.bind (settle (tracer.classify context))).getD (tracer.undefinedUse use symbol) := by
  rw [classify_named (LoadedUnit.namedSymbol?_of_localUse? isUse),
    value_traceSymbol_local coherent deep listed held
      (LoadedUnit.isLocalVariable_of_localUse? isUse), definitions]

/-- Definitions of the method itself count as soon as one of them gives a value, or no other method
    declares the variable. -/
theorem definitionsOf_direct {found : Definitions}
    (ran : tracer.loaded.reachingDefinitions tracer.catalog method (tracer.keyOf symbol) use =
      some found)
    (counts : found.latest.isSome ∨ tracer.capturedFrom? symbol (some method) = none) :
    tracer.definitionsOf (some method) use symbol = (some found, some method) := by
  rw [keyOf] at ran
  rcases counts with given | uncaptured
  · obtain ⟨latest, present⟩ := Option.isSome_iff_exists.mp given
    simp only [definitionsOf, Option.bind_some, ran, present]
  · rw [definitionsOf_uncaptured uncaptured, Option.bind_some, ran]

/-- Without a value of its own, a captured variable has the definitions of the method that declares
    it. -/
theorem definitionsOf_captured {found : Definitions} {outer : MethodDecl Site}
    (ran : tracer.loaded.reachingDefinitions tracer.catalog method (tracer.keyOf symbol) use =
      some found)
    (unset : found.latest = none)
    (captured : tracer.capturedFrom? symbol (some method) = some outer) :
    tracer.definitionsOf (some method) use symbol =
      (tracer.loaded.capturedDefinitions tracer.catalog outer (tracer.keyOf symbol) use,
        some outer) := by
  rw [keyOf] at ran
  simp only [definitionsOf, Option.bind_some, ran, unset, captured, keyOf]

/-- No update that counts is dropped. Those of the method itself count if a definition of the method
    gives the variable a value before the use, or if no other method declares the variable. If not,
    the verdict is settled by the definitions of the method that declares it, and their updates
    count. -/
theorem updates_count {document : UnitDocument}
    (made : LoadedUnit.ofDocument document = .ok tracer.loaded)
    (deep : tracer.loaded.nodes.length + tracer.loaded.model.symbolCount < tracer.maxDepth)
    (listed : .method method ∈ tracer.loaded.nodes) (held : .expr use ∈ method.bodyNodes)
    (isUse : tracer.loaded.localUse? use = some symbol) {found : Definitions}
    (ran : tracer.loaded.reachingDefinitions tracer.catalog method (tracer.keyOf symbol) use =
      some found) :
    (found.latest.isSome ∨ tracer.capturedFrom? symbol (some method) = none →
      ∀ u ∈ found.updates, (tracer.classify (some method) u).constancy.rank ≤
        (tracer.classify (some method) use).constancy.rank) ∧
    ∀ outer, found.latest = none → tracer.capturedFrom? symbol (some method) = some outer →
      tracer.classify (some method) use =
        ((tracer.loaded.capturedDefinitions tracer.catalog outer (tracer.keyOf symbol) use).bind
          (settle (tracer.classify (some outer)))).getD (tracer.undefinedUse use symbol) ∧
      ∀ captured,
        tracer.loaded.capturedDefinitions tracer.catalog outer (tracer.keyOf symbol) use =
          some captured →
        ∀ u ∈ captured.updates, (tracer.classify (some outer) u).constancy.rank ≤
          (tracer.classify (some method) use).constancy.rank := by
  have coherent := LoadedUnit.coherent_ofDocument made
  have deep : tracer.loaded.nodes.length < tracer.maxDepth := by omega
  have blamed : (tracer.undefinedUse use symbol).constancy = .dynamicUnsafe := rfl
  constructor
  · intro counts u added
    rw [classify_of_definitionsOf coherent deep listed held isUse (definitionsOf_direct ran counts)]
    exact rank_le_settle _ blamed added
  · intro outer unset captured
    have settled := classify_of_definitionsOf coherent deep listed held isUse
      (definitionsOf_captured ran unset captured)
    refine ⟨settled, fun definitions found u added => ?_⟩
    rw [settled, found]
    exact rank_le_settle _ blamed added

end Tracer

/-- A local class captures a builder of the method around it, and adds its own parameter to it. -/
def UnitDocument.callback : UnitDocument where
  model := ⟨[⟨"p.Q", .ordinary, none, [], none,
      [⟨"m", none, .method, false, false, none, none, [], [⟨"s", none, none⟩]⟩]⟩,
    ⟨"p.L", .ordinary, none, [], none,
      [⟨"run", none, .method, false, false, none, none, [⟨"p", none, none⟩], []⟩]⟩]⟩
  tree :=
    let builder := some "java.lang.StringBuilder"
    let text (value : String) : Expr Span := .literal .unknown .string value none
    let s : Expr Span := .ident .unknown "s" (some "p.Q#m.s") builder
    let p : Expr Span := .ident ⟨3, 1, 3, 2⟩ "p" (some "p.L#run.p") none
    let append (added : Expr Span) : Stmt Span :=
      .expression .unknown
        (.call .unknown (.select .unknown s "append" none none) [added] none none)
    let run : MethodDecl Span := ⟨.unknown, "run", some "p.L#run",
      [⟨.unknown, "p", some "p.L#run.p", none, none⟩],
      some ⟨.unknown, [append p, .ret .unknown (some s)]⟩⟩
    let m : MethodDecl Span := ⟨.unknown, "m", some "p.Q#m", [], some ⟨.unknown,
      [.varDecl ⟨.unknown, "s", some "p.Q#m.s", builder,
          some (.creation .unknown [text "x"] none none builder)⟩,
        append (text "y"),
        .classDecl ⟨.unknown, .ordinary, some "L", some "p.L", [.method run]⟩]⟩⟩
    ⟨"Q.java", none, [⟨.unknown, .ordinary, some "Q", some "p.Q", [.method m]⟩]⟩

/-- In the local class the parameter is added to the captured builder, which is then used. -/
private theorem Tracer.evaluated_callback : ∃ loaded method use s found u outer captured,
    LoadedUnit.ofDocument .callback = .ok loaded ∧ .method method ∈ loaded.nodes ∧
      .expr use ∈ method.bodyNodes ∧ loaded.localUse? use = some s ∧
      loaded.reachingDefinitions .builtin method ((Tracer.mk loaded .builtin 64).keyOf s) use =
        some found ∧
      u ∈ found.updates ∧
      (Tracer.mk loaded .builtin 64).capturedFrom? s (some method) = some outer ∧
      loaded.capturedDefinitions .builtin outer ((Tracer.mk loaded .builtin 64).keyOf s) use =
        some captured ∧
      loaded.nodes.length + loaded.model.symbolCount < 64 ∧ found.latest.isNone ∧
      captured.updates.length = 1 ∧
      (Tracer.mk loaded .builtin 64).classify (some method) use = .constant ∧
      (Tracer.mk loaded .builtin 64).classify (some method) u =
        .blame "p" ⟨3, 1, 3, 2⟩ .parameter := by
  have evaluated : ((LoadedUnit.ofDocument .callback).toOption.bind fun loaded =>
      (loaded.declarations.method? "p.L#run").bind fun method =>
        (LoadedUnit.heldExpr? method 22).map fun use => (loaded.localUse? use).any fun s =>
          (loaded.reachingDefinitions .builtin method
              ((Tracer.mk loaded .builtin 64).keyOf s) use).any fun found =>
            found.updates.any fun u =>
              ((Tracer.mk loaded .builtin 64).capturedFrom? s (some method)).any fun outer =>
                (loaded.capturedDefinitions .builtin outer
                    ((Tracer.mk loaded .builtin 64).keyOf s) use).any fun captured =>
                  loaded.nodes.length + loaded.model.symbolCount < 64 ∧ found.latest.isNone ∧
                    captured.updates.length = 1 ∧
                    (Tracer.mk loaded .builtin 64).classify (some method) use = .constant ∧
                    (Tracer.mk loaded .builtin 64).classify (some method) u =
                      .blame "p" ⟨3, 1, 3, 2⟩ .parameter) = some true := by
    decide +kernel
  obtain ⟨loaded, method, use, made, listed, held, evaluated⟩ :=
    LoadedUnit.exists_of_evaluated evaluated
  obtain ⟨s, isUse, evaluated⟩ := (Option.any_eq_true _ _).mp evaluated
  obtain ⟨found, ran, evaluated⟩ := (Option.any_eq_true _ _).mp evaluated
  obtain ⟨u, added, evaluated⟩ := List.any_eq_true.mp evaluated
  obtain ⟨outer, declares, evaluated⟩ := (Option.any_eq_true _ _).mp evaluated
  obtain ⟨captured, searched, checked⟩ := (Option.any_eq_true _ _).mp evaluated
  exact ⟨loaded, method, use, s, found, u, outer, captured, made, listed, held, isUse, ran, added,
    declares, searched, of_decide_eq_true checked⟩

/-- What the local class itself adds to the captured builder is dropped, though it is found: the
    builder is taken for constant where the update is not. -/
theorem Tracer.update_dropped_callback : ∃ loaded method use s found u,
    LoadedUnit.ofDocument .callback = .ok loaded ∧
      loaded.nodes.length + loaded.model.symbolCount < 64 ∧ .method method ∈ loaded.nodes ∧
      .expr use ∈ method.bodyNodes ∧ loaded.localUse? use = some s ∧
      loaded.reachingDefinitions .builtin method ((Tracer.mk loaded .builtin 64).keyOf s) use =
        some found ∧
      u ∈ found.updates ∧
      ((Tracer.mk loaded .builtin 64).classify (some method) use).constancy.rank <
        ((Tracer.mk loaded .builtin 64).classify (some method) u).constancy.rank := by
  obtain ⟨loaded, method, use, s, found, u, -, -, made, listed, held, isUse, ran, added, -, -,
    deep, -, -, constant, blamed⟩ := evaluated_callback
  refine ⟨loaded, method, use, s, found, u, made, deep, listed, held, isUse, ran, added, ?_⟩
  rw [constant, blamed]
  show 0 < 2
  omega

/-- The update that counts in the local class is the one of the method around it. -/
theorem Tracer.updates_count_callback : ∃ loaded method use s outer captured u,
    LoadedUnit.ofDocument .callback = .ok loaded ∧
      loaded.nodes.length + loaded.model.symbolCount < 64 ∧ .method method ∈ loaded.nodes ∧
      .expr use ∈ method.bodyNodes ∧ loaded.localUse? use = some s ∧
      (Tracer.mk loaded .builtin 64).capturedFrom? s (some method) = some outer ∧
      loaded.capturedDefinitions .builtin outer ((Tracer.mk loaded .builtin 64).keyOf s) use =
        some captured ∧
      u ∈ captured.updates ∧
      ((Tracer.mk loaded .builtin 64).classify (some outer) u).constancy.rank ≤
        ((Tracer.mk loaded .builtin 64).classify (some method) use).constancy.rank := by
  obtain ⟨loaded, method, use, s, found, -, outer, captured, made, listed, held, isUse, ran, -,
    declares, searched, deep, unset, updated, -, -⟩ := evaluated_callback
  obtain ⟨u, added⟩ := List.exists_mem_of_length_pos (l := captured.updates) (by omega)
  have counted := @updates_count ⟨loaded, .builtin, 64⟩ method use s .callback made deep listed
    held isUse found ran
  have settled := counted.2 outer (Option.isNone_iff_eq_none.mp unset) declares
  exact ⟨loaded, method, use, s, outer, captured, u, made, deep, listed, held, isUse, declares,
    searched, added, settled.2 captured searched u added⟩

end BugPatterns
