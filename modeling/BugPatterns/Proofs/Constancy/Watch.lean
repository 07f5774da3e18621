import BugPatterns.Proofs.Constancy.Steps

/-!
# Watched traces

A watched trace is a trace with a guard at every use of a local variable: where the use does not
come in the order that is expected (`Tracer.InOrder`) an alarm is run in place of the trace, and
where the given depth is used up something else may be run as well. The alarm can do anything to the
active traces, so a watched trace that has the verdict and leaves the active traces of a trace, for
every alarm, has raised none.

Two computations that start with the same active traces run alike if their parts do; the lemmas of
this module carry that from the steps of a trace to the whole.
-/

namespace BugPatterns

namespace TraceM

variable {α β : Type} {active : ActiveTraces}

/-- A computation runs like one that restores the active traces if both its parts do. -/
theorem run_bind_congr {x y : TraceM α} {f g : α → TraceM β} (first : x.run active = y.run active)
    (restores : y.Restores) (rest : ∀ a, (f a).run active = (g a).run active) :
    (x >>= f).run active = (y >>= g).run active := by
  show (f (x.run active).1).run (x.run active).2 = (g (y.run active).1).run (y.run active).2
  rw [first, restores active, rest]

theorem run_withUse_congr {x y : TraceM α} (use : Nat)
    (inner : x.run { active with uses := use :: active.uses } =
      y.run { active with uses := use :: active.uses }) :
    (withUse use x).run active = (withUse use y).run active := by
  have run_eq (z : TraceM α) : (withUse use z).run active =
      (fun result => (result.1, { result.2 with uses := result.2.uses.erase use }))
        (z.run { active with uses := use :: active.uses }) := rfl
  rw [run_eq, run_eq, inner]

theorem run_withField_congr {x y : TraceM α} (field : SymbolId)
    (inner : x.run { active with fields := field :: active.fields } =
      y.run { active with fields := field :: active.fields }) :
    (withField field x).run active = (withField field y).run active := by
  have run_eq (z : TraceM α) : (withField field z).run active =
      (fun result => (result.1, { result.2 with fields := result.2.fields.erase field }))
        (z.run { active with fields := field :: active.fields }) := rfl
  rw [run_eq, run_eq, inner]

end TraceM

namespace Tracer

variable (tracer : Tracer)

/-- A use of a local variable comes in order: it is not being traced, and in a method it lies before
    all uses that are. -/
def InOrder (context : TraceContext) (use : Expr Site) (active : ActiveTraces) : Prop :=
  use.label.number ∉ active.uses ∧
    (context.isSome → ∀ n ∈ active.uses, use.label.number < n)

instance (context : TraceContext) (use : Expr Site) (active : ActiveTraces) :
    Decidable (InOrder context use active) :=
  inferInstanceAs (Decidable (_ ∧ _))

/-- What is done about a use of a local variable that does not come in order. -/
abbrev Alarm := TraceContext → Expr Site → SymbolId → TraceM Verdict

section Watch

variable (alarm : Alarm)

/-- Traces a use of a symbol, a local variable only where the use comes in order. -/
def watchSymbol (deeper : Option TraceStep) (context : TraceContext) (use : Expr Site)
    (symbol : SymbolId) : TraceM Verdict := do
  if tracer.loaded.model.isLocalVariable symbol ∧ ¬ InOrder context use (← get) then
    alarm context use symbol
  else tracer.traceSymbol deeper context use symbol

/-- The watched verdict on an expression when no step may be taken. -/
def watchLast : TraceStep := fun context e => tracer.judge (tracer.watchSymbol alarm none context) e

/-- The watched verdict on an expression when at most `depth` steps may be taken before `bottom`
    takes over. -/
def watchExpr (bottom : TraceStep) : Nat → TraceStep
  | 0, context, e => bottom context e
  | depth + 1, context, e =>
      tracer.judge (tracer.watchSymbol alarm (some (watchExpr bottom depth)) context) e

end Watch

variable {tracer}

section Congruence

variable {active : ActiveTraces}

section Judge

variable {onSymbol other : OnSymbol}

mutual

/-- Judgements run alike if the uses of symbols at the leaves do. -/
theorem run_judge_congr (restores : ∀ e s, (other e s).Restores) (e : Expr Site)
    (same : ∀ u ∈ tracer.leaves e, ∀ s, tracer.loaded.symbolOf u = some s →
      (onSymbol u s).run active = (other u s).run active) :
    (tracer.judge onSymbol e).run active = (tracer.judge other e).run active := by
  cases e with
  | literal | index => rfl
  | paren _ inner _ => exact run_judge_congr restores inner same
  | cast _ operand _ => exact run_judge_congr restores operand same
  | unary _ _ operand _ => exact run_judge_congr restores operand same
  | assign _ _ _ value _ => exact run_judge_congr restores value same
  | binary _ _ lhs rhs _ =>
      refine TraceM.run_bind_congr
        (run_judge_congr restores lhs fun u member => same u (List.mem_append_left _ member))
        (restores_judge restores lhs) fun _ => TraceM.run_bind_congr
          (run_judge_congr restores rhs fun u member => same u (List.mem_append_right _ member))
          (restores_judge restores rhs) fun _ => rfl
  | conditional _ _ whenTrue whenFalse _ =>
      refine TraceM.run_bind_congr
        (run_judge_congr restores whenTrue fun u member => same u (List.mem_append_left _ member))
        (restores_judge restores whenTrue) fun _ => TraceM.run_bind_congr
          (run_judge_congr restores whenFalse fun u member =>
            same u (List.mem_append_right _ member))
          (restores_judge restores whenFalse) fun _ => rfl
  | ident label name symbol type =>
      simp only [judge]
      split
      · next s bound => exact same _ List.mem_cons_self s bound
      · rfl
  | select label target name symbol type =>
      simp only [judge]
      split
      · next s bound => exact same _ List.mem_cons_self s bound
      · rfl
  | call label callee args symbol type =>
      simp only [leaves] at same
      simp only [judge]
      generalize tracer.callEffect? (.call label callee args symbol type) callee = known
        at same ⊢
      cases known with
      | none => rfl
      | some effect =>
          cases effect with
          | safe => rfl
          | propagate | mutate =>
              exact TraceM.run_bind_congr
                (run_judgeReceiver_congr restores callee
                  fun u member => same u (List.mem_append_left _ member))
                (restores_judgeReceiver restores callee) fun verdict =>
                  run_judgeAll_congr restores args
                    (fun u member => same u (List.mem_append_right _ member)) verdict
  | creation label args body symbol type =>
      simp only [leaves] at same
      simp only [judge]
      split
      · next built =>
          rw [if_pos built] at same
          exact run_judgeAll_congr restores args same _
      · rfl

theorem run_judgeReceiver_congr (restores : ∀ e s, (other e s).Restores) (e : Expr Site)
    (same : ∀ u ∈ tracer.receiverLeaves e, ∀ s, tracer.loaded.symbolOf u = some s →
      (onSymbol u s).run active = (other u s).run active) :
    (tracer.judgeReceiver onSymbol e).run active = (tracer.judgeReceiver other e).run active := by
  cases e with
  | select _ target _ _ _ => exact run_judge_congr restores target same
  | _ => rfl

theorem run_judgeAll_congr (restores : ∀ e s, (other e s).Restores) (es : List (Expr Site))
    (same : ∀ u ∈ tracer.allLeaves es, ∀ s, tracer.loaded.symbolOf u = some s →
      (onSymbol u s).run active = (other u s).run active) (verdict : Verdict) :
    (tracer.judgeAll onSymbol verdict es).run active =
      (tracer.judgeAll other verdict es).run active := by
  cases es with
  | nil => rfl
  | cons e es =>
      exact TraceM.run_bind_congr
        (run_judge_congr restores e fun u member => same u (List.mem_append_left _ member))
        (restores_judge restores e) fun next =>
          run_judgeAll_congr restores es (fun u member => same u (List.mem_append_right _ member)) _

end

end Judge

theorem run_judgeUpdates_congr {judgeIn other : Expr Site → TraceM Verdict}
    (restores : ∀ e, (other e).Restores) {es : List (Expr Site)}
    (same : ∀ e ∈ es, (judgeIn e).run active = (other e).run active) : ∀ verdict,
    (judgeUpdates judgeIn verdict es).run active = (judgeUpdates other verdict es).run active := by
  induction es with
  | nil => exact fun _ => rfl
  | cons e es ih =>
      exact fun _ => TraceM.run_bind_congr (same e List.mem_cons_self) (restores e) fun _ =>
        ih (fun d member => same d (List.mem_cons_of_mem _ member)) _

variable {use : Expr Site} {symbol : SymbolId} {inner outer : TraceStep}
  (restores : ∀ context e, (outer context e).Restores)

include restores

/-- Traces of a local variable run alike if those of the values do that reach the use. -/
theorem run_traceLocal_congr {context : TraceContext}
    (same : ∀ found, (tracer.definitionsOf context use symbol).1 = some found →
      ∀ e, found.latest = some e ∨ e ∈ found.updates →
        (inner (tracer.definitionsOf context use symbol).2 e).run
            { active with uses := use.label.number :: active.uses } =
          (outer (tracer.definitionsOf context use symbol).2 e).run
            { active with uses := use.label.number :: active.uses }) :
    (tracer.traceLocal (some inner) context use symbol).run active =
      (tracer.traceLocal (some outer) context use symbol).run active := by
  unfold traceLocal
  refine TraceM.run_bind_congr rfl (fun _ => rfl) fun now => ?_
  split
  · rfl
  · refine TraceM.run_withUse_congr _ ?_
    revert same
    generalize tracer.definitionsOf context use symbol = reaching
    obtain ⟨definitions, next⟩ := reaching
    intro same
    cases definitions with
    | none => rfl
    | some found =>
        obtain ⟨latest, updates⟩ := found
        cases latest with
        | none => rfl
        | some latest =>
            exact TraceM.run_bind_congr (same _ rfl latest (Or.inl rfl)) (restores next latest)
              (run_judgeUpdates_congr (restores next) fun e member =>
                same _ rfl e (Or.inr member))

/-- Traces of a field run alike if those of its initializer do. -/
theorem run_traceField_congr
    (same : ∀ init, tracer.initializer? symbol = some init → symbol ∉ active.fields →
      (inner none init).run { active with fields := symbol :: active.fields } =
        (outer none init).run { active with fields := symbol :: active.fields }) :
    (tracer.traceField (some inner) use symbol).run active =
      (tracer.traceField (some outer) use symbol).run active := by
  unfold traceField
  simp only
  split
  · rfl
  · split
    · rfl
    · rw [← initializer?]
      revert same
      cases tracer.initializer? symbol with
      | none => exact fun _ => rfl
      | some init =>
          intro same
          simp only
          show StateT.run (if symbol ∈ active.fields then _ else _) active =
            StateT.run (if symbol ∈ active.fields then _ else _) active
          split
          · rfl
          · next fresh =>
              refine TraceM.run_bind_congr (TraceM.run_withField_congr _ (same init rfl fresh))
                (TraceM.Restores.withField (restores none init) _) fun _ => rfl

/-- Traces of a symbol run alike if those of the values do that it may stand for. -/
theorem run_traceSymbol_congr {context : TraceContext}
    (onLocal : tracer.loaded.model.isLocalVariable symbol →
      ∀ found, (tracer.definitionsOf context use symbol).1 = some found →
      ∀ e, found.latest = some e ∨ e ∈ found.updates →
        (inner (tracer.definitionsOf context use symbol).2 e).run
            { active with uses := use.label.number :: active.uses } =
          (outer (tracer.definitionsOf context use symbol).2 e).run
            { active with uses := use.label.number :: active.uses })
    (onField : ∀ init, tracer.initializer? symbol = some init → symbol ∉ active.fields →
      (inner none init).run { active with fields := symbol :: active.fields } =
        (outer none init).run { active with fields := symbol :: active.fields }) :
    (tracer.traceSymbol (some inner) context use symbol).run active =
      (tracer.traceSymbol (some outer) context use symbol).run active := by
  unfold traceSymbol
  simp only
  split
  · rfl
  · split
    · rfl
    · split
      · next isLocal => exact run_traceLocal_congr restores (onLocal isLocal)
      · split
        · exact run_traceField_congr restores onField
        · rfl

end Congruence

end Tracer

end BugPatterns
