import BugPatterns.Proofs.Constancy.Scan
import BugPatterns.Proofs.Constancy.Steps

/-!
# What a trace asks

A search for definitions asks a catalog for the effects of calls and nothing else, and a trace asks
it for constructors as well (`Tracer.AsksAlike`). Sinks, and the bound on the depth, have no part in
what is found before the depth runs out.
-/

namespace BugPatterns

/-- The effect of a call is looked up among the known calls alone. -/
theorem Catalog.effect?_congr {catalog other : Catalog} (calls : other.calls = catalog.calls) :
    other.effect? = catalog.effect? := by
  unfold effect? call?
  rw [calls]

/-- A constructor is looked up among the constructors alone. -/
theorem Catalog.constructs_congr {catalog other : Catalog}
    (constructors : other.constructors = catalog.constructors) :
    other.constructs = catalog.constructs := by
  unfold constructs
  rw [constructors]

namespace DefinitionSearch

variable {loaded : LoadedUnit} {catalog other : Catalog} {key : String} {use headed : Nat}
  {captured inside : Bool} (calls : other.calls = catalog.calls)

include calls

/-- What calls add to a variable is a matter of the known calls, wherever a search is headed. -/
theorem isRooted_congr (e : Expr Site) :
    isRooted ⟨loaded, other, key, headed, inside⟩ e =
      isRooted ⟨loaded, catalog, key, use, captured⟩ e := by
  induction e using isRooted.induct with
  | case1 _ inner _ ih => exact ih
  | case2 _ _ target _ _ _ _ _ _ ih =>
      rw [isRooted, isRooted, ih]
      simp only [mutates, Catalog.effect?_congr calls]
  | case3 _ callee _ _ _ unqualified =>
      cases callee with
      | select => exact (unqualified _ _ _ _ _ rfl).elim
      | _ => rfl
  | case4 e noParen _ noCall =>
      cases e with
      | paren => exact (noParen _ _ _ rfl).elim
      | call => exact (noCall _ _ _ _ _ rfl).elim
      | _ => rfl

theorem event?_congr :
    event? ⟨loaded, other, key, headed, inside⟩ = event? ⟨loaded, catalog, key, use, captured⟩ := by
  funext n
  cases n with
  | expr e =>
      cases e with
      | call => rw [event?, event?, isRooted_congr calls]
      | _ => rfl
  | _ => rfl

/-- With the same known calls a search finds the same definitions. -/
theorem run_congr (method : MethodDecl Site) :
    run ⟨loaded, other, key, use, captured⟩ method =
      run ⟨loaded, catalog, key, use, captured⟩ method := by
  have steps : step ⟨loaded, other, key, use, captured⟩ =
      step ⟨loaded, catalog, key, use, captured⟩ := by
    have events : event? ⟨loaded, other, key, use, captured⟩ =
        event? ⟨loaded, catalog, key, use, captured⟩ := event?_congr calls
    funext scan s
    cases s with
    | enter n => cases n <;> rfl
    | leave n => simp only [step, leave, events]
  cases present : method.body with
  | none => simp only [run, present]
  | some body =>
      have scanned := @scanTree_eq_foldl ⟨loaded, other, key, use, captured⟩ (.block body)
        ⟨false, .empty⟩
      rw [steps, ← scanTree_eq_foldl] at scanned
      have sameTree : body.tree = (Node.block body).tree := rfl
      simp only [run, present, sameTree, scanned]

end DefinitionSearch

namespace Tracer

/-- Two tracers of one unit that know the same calls and the same constructors. -/
structure AsksAlike (tracer other : Tracer) : Prop where
  loaded : other.loaded = tracer.loaded
  calls : other.catalog.calls = tracer.catalog.calls
  constructors : other.catalog.constructors = tracer.catalog.constructors

variable {tracer other : Tracer} {onSymbol : OnSymbol}

theorem callEffect?_congr (loaded : other.loaded = tracer.loaded)
    (calls : other.catalog.calls = tracer.catalog.calls) :
    other.callEffect? = tracer.callEffect? := by
  unfold callEffect?
  rw [loaded, Catalog.effect?_congr calls]

theorem constructs_alike (alike : tracer.AsksAlike other) :
    other.constructs = tracer.constructs := by
  unfold constructs
  rw [alike.loaded, Catalog.constructs_congr alike.constructors]

mutual

theorem judge_alike (alike : tracer.AsksAlike other) (e : Expr Site) :
    other.judge onSymbol e = tracer.judge onSymbol e := by
  cases e with
  | literal | index => rfl
  | ident | select => simp only [judge, alike.loaded]
  | paren _ inner _ => exact judge_alike alike inner
  | cast _ operand _ => exact judge_alike alike operand
  | unary _ _ operand _ => exact judge_alike alike operand
  | binary _ _ lhs rhs _ => rw [judge, judge, judge_alike alike lhs, judge_alike alike rhs]
  | conditional _ _ whenTrue whenFalse _ =>
      rw [judge, judge, judge_alike alike whenTrue, judge_alike alike whenFalse]
  | assign _ _ _ value _ => exact judge_alike alike value
  | call label callee args symbol type =>
      simp only [judge, callEffect?_congr alike.loaded alike.calls,
        judgeReceiver_alike alike callee, judgeAll_alike alike args]
  | creation label args body symbol type =>
      simp only [judge, constructs_alike alike, judgeAll_alike alike args]

theorem judgeReceiver_alike (alike : tracer.AsksAlike other) (e : Expr Site) :
    other.judgeReceiver onSymbol e = tracer.judgeReceiver onSymbol e := by
  cases e with
  | select _ target _ _ _ => exact judge_alike alike target
  | _ => rfl

theorem judgeAll_alike (alike : tracer.AsksAlike other) (es : List (Expr Site))
    (verdict : Verdict) :
    other.judgeAll onSymbol verdict es = tracer.judgeAll onSymbol verdict es := by
  cases es with
  | nil => rfl
  | cons e es => simp only [judgeAll, judge_alike alike e, judgeAll_alike alike es]

end

/-- The known calls settle which definitions reach a use. -/
theorem definitionsOf_congr (loaded : other.loaded = tracer.loaded)
    (calls : other.catalog.calls = tracer.catalog.calls) :
    other.definitionsOf = tracer.definitionsOf := by
  funext context use symbol
  simp only [definitionsOf, capturedFrom?, loaded, LoadedUnit.reachingDefinitions,
    LoadedUnit.capturedDefinitions, DefinitionSearch.run_congr calls]

theorem traceSymbol_alike (alike : tracer.AsksAlike other) :
    other.traceSymbol = tracer.traceSymbol := by
  funext deeper context use symbol
  have onLocal : other.traceLocal deeper context use symbol =
      tracer.traceLocal deeper context use symbol := by
    simp only [traceLocal, definitionsOf_congr alike.loaded alike.calls, alike.loaded]
  have onField : other.traceField deeper use symbol = tracer.traceField deeper use symbol := by
    rw [traceField_congr alike.loaded]
  simp only [traceSymbol, onLocal, onField, alike.loaded]

/-- Tracers that ask alike find the same within the same depth. -/
theorem traceExpr_alike (alike : tracer.AsksAlike other) (depth : Nat) :
    other.traceExpr depth = tracer.traceExpr depth := by
  induction depth with
  | zero =>
      funext context e
      rw [traceExpr, traceExpr, traceSymbol_alike alike, judge_alike alike]
  | succ depth ih =>
      funext context e
      rw [traceExpr, traceExpr, ih, traceSymbol_alike alike, judge_alike alike]

theorem classify_alike (alike : tracer.AsksAlike other)
    (sameDepth : other.maxDepth = tracer.maxDepth) :
    other.classify = tracer.classify := by
  funext context e
  rw [classify, classify, sameDepth, traceExpr_alike alike]

end Tracer

end BugPatterns
