import BugPatterns.Constancy.InPlace
import BugPatterns.Proofs.Constancy.Steps

/-!
# Queries leave their state as they found it

Whatever a query classifies, and by whichever way it returns, the depth and what is being traced are
in the end what they were before (`Tracer.queries_restore`). So what comes next starts where the
first part started: a right operand is classified as if the left one had not been. The verdicts are
those of a trace that has as many steps left as the state leaves (`Tracer.classifies_queryExpr`).
-/

namespace BugPatterns

namespace QueryM

variable {α β : Type} {state : QueryState} {a : α} {b : β}

/-- The computation has a result and leaves the state as it found it. -/
def Yields (x : QueryM α) (state : QueryState) (result : α) : Prop := x.run state = (result, state)

theorem yields_pure (a : α) (state : QueryState) : Yields (pure a) state a := rfl

theorem run_bind (x : QueryM α) (f : α → QueryM β) (state : QueryState) :
    (x >>= f).run state = (f (x.run state).1).run (x.run state).2 := rfl

/-- What comes next starts with the result, in the state that was there before. -/
theorem Yields.run_bind {x : QueryM α} (first : x.Yields state a) (f : α → QueryM β) :
    (x >>= f).run state = (f a).run state := by
  have start : x.run state = (a, state) := first
  rw [QueryM.run_bind, start]

theorem Yields.bind {x : QueryM α} {f : α → QueryM β} (first : x.Yields state a)
    (rest : (f a).Yields state b) : (x >>= f).Yields state b :=
  (first.run_bind f).trans rest

theorem Yields.state_eq {x : QueryM α} (yields : x.Yields state a) : (x.run state).2 = state :=
  congrArg Prod.snd yields

/-- What a computation yields that leaves the state as it found it. -/
theorem yields_of_state_eq {x : QueryM α} (same : (x.run state).2 = state) :
    x.Yields state (x.run state).1 := Prod.ext rfl same

theorem yields_get_bind {f : QueryState → QueryM β} (rest : (f state).Yields state b) :
    (get >>= f : QueryM β).Yields state b := rest

theorem run_enterUse_of_notMem {use : Nat} (fresh : use ∉ state.uses) :
    (enterUse use).run state = (true, { state with uses := insert use state.uses }) := by
  show (decide _, _) = _
  rw [decide_eq_true fresh]

/-- Entering a use that is being traced changes nothing. -/
theorem run_enterUse_of_mem {use : Nat} (again : use ∈ state.uses) :
    (enterUse use).run state = (false, state) := by
  show (decide _, ({ state with uses := insert use state.uses } : QueryState)) = _
  rw [decide_eq_false (not_not_intro again), Finset.insert_eq_self.mpr again]

theorem run_enterField_of_notMem {field : SymbolId} (fresh : field ∉ state.fields) :
    (enterField field).run state = (true, { state with fields := insert field state.fields }) := by
  show (decide _, _) = _
  rw [decide_eq_true fresh]

/-- Entering a field that is being traced changes nothing. -/
theorem run_enterField_of_mem {field : SymbolId} (again : field ∈ state.fields) :
    (enterField field).run state = (false, state) := by
  show (decide _, ({ state with fields := insert field state.fields } : QueryState)) = _
  rw [decide_eq_false (not_not_intro again), Finset.insert_eq_self.mpr again]

/-- Leaving a use that was not traced before it was entered takes the entry back. -/
theorem run_leaveUse_insert {use : Nat} (fresh : use ∉ state.uses) :
    (leaveUse use).run { state with uses := insert use state.uses } = ((), state) := by
  show ((), ({ state with uses := (insert use state.uses).erase use } : QueryState)) = _
  rw [Finset.erase_insert fresh]

theorem run_leaveField_insert {field : SymbolId} (fresh : field ∉ state.fields) :
    (leaveField field).run { state with fields := insert field state.fields } = ((), state) := by
  show ((), ({ state with fields := (insert field state.fields).erase field } : QueryState)) = _
  rw [Finset.erase_insert fresh]

/-- A use that was not traced before is left again. -/
theorem Yields.leaveUse {use : Nat} (fresh : use ∉ state.uses) {x : QueryM α}
    (inner : x.Yields { state with uses := insert use state.uses } a) :
    (do
      let a ← x
      QueryM.leaveUse use
      return a : QueryM α).run { state with uses := insert use state.uses } = (a, state) := by
  rw [inner.run_bind, QueryM.run_bind, run_leaveUse_insert fresh]
  rfl

/-- What is done one step deeper leaves the depth as it was. -/
theorem run_deeper {x : QueryM α} (inner : x.Yields { state with depth := state.depth + 1 } a)
    (f : α → QueryM β) :
    (descend >>= fun _ => x >>= fun a => ascend >>= fun _ => f a).run state = (f a).run state := by
  show (x >>= fun a => ascend >>= fun _ => f a).run { state with depth := state.depth + 1 } = _
  rw [inner.run_bind]
  rfl

/-- A field that was not traced before is left again, after a step deeper. -/
theorem Yields.leaveField {field : SymbolId} (fresh : field ∉ state.fields) {x : QueryM α}
    (inner : x.Yields ⟨state.depth + 1, state.uses, insert field state.fields⟩ a) (f : α → β) :
    (do
      descend
      let a ← x
      ascend
      QueryM.leaveField field
      return f a : QueryM β).run { state with fields := insert field state.fields } =
        (f a, state) := by
  rw [run_deeper inner, QueryM.run_bind, run_leaveField_insert fresh]
  rfl

end QueryM

/-- The same uses and fields are being traced. -/
structure QueryState.Matches (state : QueryState) (active : ActiveTraces) : Prop where
  uses : ∀ n, n ∈ active.uses ↔ n ∈ state.uses
  fields : ∀ s, s ∈ active.fields ↔ s ∈ state.fields

namespace QueryState

theorem matches_start : start.Matches .idle := by
  constructor <;> simp [start, ActiveTraces.idle]

theorem exists_matches (state : QueryState) : ∃ active, state.Matches active :=
  ⟨⟨state.uses.toList, state.fields.toList⟩, fun _ => Finset.mem_toList, fun _ => Finset.mem_toList⟩

variable {state : QueryState} {active : ActiveTraces} (same : state.Matches active)

include same

theorem Matches.enterUse (use depth : Nat) :
    Matches ⟨depth, insert use state.uses, state.fields⟩
      { active with uses := use :: active.uses } where
  uses n := by rw [List.mem_cons, Finset.mem_insert, same.uses]
  fields := same.fields

theorem Matches.enterField (field : SymbolId) (depth : Nat) :
    Matches ⟨depth, state.uses, insert field state.fields⟩
      { active with fields := field :: active.fields } where
  uses := same.uses
  fields s := by rw [List.mem_cons, Finset.mem_insert, same.fields]

end QueryState

namespace Tracer

variable {tracer : Tracer}

section Parts

variable {onSymbol : Expr Site → SymbolId → QueryM Verdict} {state : QueryState}
  {leaf : Expr Site → SymbolId → Verdict} {value : Expr Site → Verdict}

/-- In a state, uses of symbols have certain verdicts, from which others are composed. -/
structure Settles (tracer : Tracer) (onSymbol : Expr Site → SymbolId → QueryM Verdict)
    (state : QueryState) (leaf : Expr Site → SymbolId → Verdict) (value : Expr Site → Verdict) :
    Prop where
  composes : ∀ e, value e = tracer.compose leaf value e
  onLeaf : ∀ e s, (onSymbol e s).Yields state (leaf e s)

mutual

/-- A query about an expression has the verdict that is composed from its parts. -/
theorem yields_queryWith (settled : tracer.Settles onSymbol state leaf value) (e : Expr Site) :
    (tracer.queryWith onSymbol e).Yields state (value e) := by
  rw [settled.composes]
  cases e with
  | literal => exact QueryM.yields_pure _ _
  | paren _ inner _ => exact yields_queryWith settled inner
  | cast _ operand _ => exact yields_queryWith settled operand
  | unary _ _ operand _ => exact yields_queryWith settled operand
  | binary _ _ lhs rhs _ =>
      exact (yields_queryWith settled lhs).bind
        ((yields_queryWith settled rhs).bind (QueryM.yields_pure _ _))
  | conditional _ _ whenTrue whenFalse _ =>
      exact (yields_queryWith settled whenTrue).bind
        ((yields_queryWith settled whenFalse).bind (QueryM.yields_pure _ _))
  | assign _ _ _ assigned _ => exact yields_queryWith settled assigned
  | ident label name symbol type =>
      simp only [queryWith, compose]
      cases tracer.loaded.symbolOf (.ident label name symbol type) with
      | some s => exact settled.onLeaf _ s
      | none => exact QueryM.yields_pure _ _
  | select label target name symbol type =>
      simp only [queryWith, compose]
      cases tracer.loaded.symbolOf (.select label target name symbol type) with
      | some s => exact settled.onLeaf _ s
      | none => exact QueryM.yields_pure _ _
  | call label callee args symbol type =>
      have built : (do
          let receiver ← tracer.queryReceiverWith onSymbol callee
          tracer.queryAllWith onSymbol receiver args : QueryM Verdict).Yields state
          (Verdict.joinAll value (receiverValue value callee) args) :=
        (yields_queryReceiverWith settled callee).bind (yields_queryAllWith settled _ args)
      simp only [queryWith, compose]
      cases tracer.callEffect? (.call label callee args symbol type) callee with
      | none => exact QueryM.yields_pure _ _
      | some effect =>
          cases effect with
          | safe => exact QueryM.yields_pure _ _
          | propagate => exact built
          | mutate => exact built
  | creation label args body symbol type =>
      simp only [queryWith, compose]
      split
      · exact yields_queryAllWith settled _ args
      · exact QueryM.yields_pure _ _
  | index => exact QueryM.yields_pure _ _

theorem yields_queryReceiverWith (settled : tracer.Settles onSymbol state leaf value)
    (e : Expr Site) :
    (tracer.queryReceiverWith onSymbol e).Yields state (receiverValue value e) := by
  cases e with
  | select _ target _ _ _ => exact yields_queryWith settled target
  | _ => exact QueryM.yields_pure _ _

theorem yields_queryAllWith (settled : tracer.Settles onSymbol state leaf value)
    (verdict : Verdict) (es : List (Expr Site)) :
    (tracer.queryAllWith onSymbol verdict es).Yields state
      (Verdict.joinAll value verdict es) := by
  cases es with
  | nil => exact QueryM.yields_pure _ _
  | cons e es => exact (yields_queryWith settled e).bind (yields_queryAllWith settled _ es)

end

end Parts

theorem yields_queryUpdatesWith {step : Expr Site → QueryM Verdict} {state : QueryState}
    {value : Expr Site → Verdict} (onStep : ∀ e, (step e).Yields state (value e))
    (updates : List (Expr Site)) : ∀ verdict,
      (queryUpdatesWith step verdict updates).Yields state
        (Verdict.joinAll value verdict updates) := by
  induction updates with
  | nil => exact fun verdict => QueryM.yields_pure _ _
  | cons update updates ih =>
      intro verdict
      rw [queryUpdatesWith, List.foldlM_cons]
      have first : (do return verdict.join (← step update) : QueryM Verdict).Yields state
          (verdict.join (value update)) := (onStep update).bind (QueryM.yields_pure _ _)
      exact first.bind (ih _)

/-- Definitions have the verdict that their values settle. -/
theorem yields_queryDefinitionsWith {step : Expr Site → QueryM Verdict} {state : QueryState}
    {value : Expr Site → Verdict}
    (onStep : ∀ e, (step e).Yields { state with depth := state.depth + 1 } (value e))
    (undefined : Verdict) (found : Option Definitions) :
    (queryDefinitionsWith step undefined found).Yields state
      ((found.bind (settle value)).getD undefined) := by
  cases found with
  | none => exact QueryM.yields_pure _ _
  | some found =>
      obtain ⟨latest, updates⟩ := found
      cases latest with
      | none => exact QueryM.yields_pure _ _
      | some latest =>
          have inner : (do
              let verdict ← step latest
              queryUpdatesWith step verdict updates : QueryM Verdict).Yields
                { state with depth := state.depth + 1 }
                (Verdict.joinAll value (value latest) updates) :=
            (onStep latest).bind (yields_queryUpdatesWith onStep updates _)
          exact QueryM.run_deeper inner pure

/-- From a state on, a way to classify expressions has the verdicts of a trace with as many steps as
    the state leaves, and leaves the state as it found it. -/
def Classifies (tracer : Tracer) (step : QueryStep) (state : QueryState) : Prop :=
  ∀ active, state.Matches active → ∀ context e, (step context e).Yields state
    ((tracer.traceExpr (tracer.maxDepth - state.depth) context e).value active)

section Step

variable {step : QueryStep} {state : QueryState} {active : ActiveTraces}
  (deeper : ∀ inner : QueryState, inner.depth = state.depth + 1 → inner.depth ≤ tracer.maxDepth →
    tracer.Classifies step inner)

include deeper

/-- One step deeper there is one step less that a trace may take. -/
theorem yields_deeper {left : Nat} (leaves : tracer.maxDepth - state.depth = left + 1)
    {uses : Finset Nat} {fields : Finset SymbolId}
    (same : QueryState.Matches ⟨state.depth + 1, uses, fields⟩ active) (context : TraceContext)
    (e : Expr Site) :
    (step context e).Yields ⟨state.depth + 1, uses, fields⟩
      ((tracer.traceExpr left context e).value active) := by
  have room : state.depth + 1 ≤ tracer.maxDepth := by omega
  have steps : tracer.maxDepth - (state.depth + 1) = left := by omega
  rw [← steps]
  exact deeper _ rfl room active same context e

variable (same : state.Matches active)

include same

theorem yields_queryLocalWith (context : TraceContext) (use : Expr Site) (symbol : SymbolId) :
    (tracer.queryLocalWith step context use symbol).Yields state
      ((tracer.traceLocal (tracer.deeper (tracer.maxDepth - state.depth)) context use symbol).value
        active) := by
  refine QueryM.yields_get_bind ?_
  by_cases exhausted : tracer.maxDepth ≤ state.depth
  · rw [if_pos exhausted, Nat.sub_eq_zero_of_le exhausted]
    exact QueryM.yields_pure _ _
  rw [if_neg exhausted]
  obtain ⟨left, leaves⟩ : ∃ left, tracer.maxDepth - state.depth = left + 1 :=
    Nat.exists_eq_add_one_of_ne_zero (by omega)
  rw [leaves, QueryM.Yields, QueryM.run_bind]
  by_cases again : use.label.number ∈ state.uses
  · rw [QueryM.run_enterUse_of_mem again, value_traceLocal_again ((same.uses _).mpr again)]
    rfl
  · have inside := yields_deeper deeper leaves (same.enterUse use.label.number _)
    rw [QueryM.run_enterUse_of_notMem again, value_traceLocal_succ (mt (same.uses _).mp again)]
    obtain ⟨definitions, inner⟩ := tracer.definitionsOf context use symbol
    exact QueryM.Yields.leaveUse again
      (yields_queryDefinitionsWith (inside inner) (tracer.undefinedUse use symbol) definitions)

theorem yields_queryFieldWith (use : Expr Site) (symbol : SymbolId) :
    (tracer.queryFieldWith step use symbol).Yields state
      ((tracer.traceField (tracer.deeper (tracer.maxDepth - state.depth)) use symbol).value
        active) := by
  unfold queryFieldWith
  by_cases constant : (tracer.loaded.model.symbol symbol).constant.isSome
  · rw [if_pos constant, value_traceField_constant constant]
    exact QueryM.yields_pure _ _
  rw [if_neg constant]
  have noConstant := Bool.eq_false_iff.mpr constant
  refine QueryM.yields_get_bind ?_
  by_cases blocked :
    (!(tracer.loaded.model.symbol symbol).isFinal || tracer.maxDepth ≤ state.depth) = true
  · rw [if_pos blocked, value_traceField_blamed noConstant]
    · exact QueryM.yields_pure _ _
    · rcases Bool.or_eq_true_iff.mp blocked with notFinal | exhausted
      · rw [Bool.not_eq_true'] at notFinal
        exact Or.inl notFinal
      · rw [Nat.sub_eq_zero_of_le (of_decide_eq_true exhausted)]
        exact Or.inr (Or.inl rfl)
  rw [if_neg blocked]
  rw [Bool.or_eq_true_iff, not_or, Bool.not_eq_true', Bool.not_eq_false,
    decide_eq_true_iff] at blocked
  obtain ⟨isFinal, room⟩ := blocked
  obtain ⟨left, leaves⟩ : ∃ left, tracer.maxDepth - state.depth = left + 1 :=
    Nat.exists_eq_add_one_of_ne_zero (by omega)
  have lookup : (tracer.loaded.declarations.field? (tracer.loaded.model.symbol symbol).key).bind
      (·.init) = tracer.initializer? symbol := rfl
  rw [leaves, lookup]
  cases found : tracer.initializer? symbol with
  | none =>
      rw [value_traceField_blamed noConstant (Or.inr (Or.inr found))]
      exact QueryM.yields_pure _ _
  | some init =>
      rw [QueryM.Yields, QueryM.run_bind]
      by_cases again : symbol ∈ state.fields
      · rw [value_traceField_again noConstant isFinal found ((same.fields _).mpr again),
          QueryM.run_enterField_of_mem again]
        rfl
      · have inside := yields_deeper deeper leaves (same.enterField symbol _) none init
        rw [value_traceField_succ noConstant isFinal found (mt (same.fields _).mp again),
          QueryM.run_enterField_of_notMem again]
        exact inside.leaveField again _

theorem yields_querySymbolWith (context : TraceContext) (use : Expr Site) (symbol : SymbolId) :
    (tracer.querySymbolWith step context use symbol).Yields state
      ((tracer.traceSymbol (tracer.deeper (tracer.maxDepth - state.depth)) context use symbol).value
        active) := by
  simp only [querySymbolWith, traceSymbol]
  split
  · exact QueryM.yields_pure _ _
  · split
    · exact QueryM.yields_pure _ _
    · split
      · exact yields_queryLocalWith deeper same context use symbol
      · split
        · exact yields_queryFieldWith deeper same use symbol
        · exact QueryM.yields_pure _ _

/-- An expression is classified as it is traced if the expressions one step deeper are. -/
theorem yields_queryWith_symbols (context : TraceContext) (e : Expr Site) :
    (tracer.queryWith (tracer.querySymbolWith step context) e).Yields state
      ((tracer.traceExpr (tracer.maxDepth - state.depth) context e).value active) := by
  rw [traceExpr_eq]
  have restores := @restores_deeper tracer (tracer.maxDepth - state.depth) context
  exact yields_queryWith ⟨value_judge restores active, yields_querySymbolWith deeper same context⟩ e

end Step

/-- With enough steps within each other, expressions are classified as they are traced. -/
theorem classifies_queryWithin (steps : Nat) :
    ∀ state : QueryState, tracer.maxDepth ≤ state.depth + steps →
      tracer.Classifies (tracer.queryWithin steps) state := by
  induction steps with
  | zero =>
      intro state enough active same context e
      exact yields_queryWith_symbols (fun inner below room => by omega) same context e
  | succ steps ih =>
      intro state enough active same context e
      exact yields_queryWith_symbols (fun inner below room => ih inner (by omega)) same context e

theorem classifies_queryExpr (state : QueryState) : tracer.Classifies tracer.queryExpr state := by
  intro active same context e
  exact classifies_queryWithin (tracer.maxDepth - state.depth) state (by omega) active same
    context e

/-- A query is what its parts are, each of which goes on with queries of its own one step deeper. -/
theorem queryExpr_eq (context : TraceContext) (e : Expr Site) :
    tracer.queryExpr context e =
      tracer.queryWith (tracer.querySymbolWith tracer.queryExpr context) e := by
  funext state
  obtain ⟨active, same⟩ := state.exists_matches
  have deeper (inner : QueryState) (_ : inner.depth = state.depth + 1)
      (_ : inner.depth ≤ tracer.maxDepth) : tracer.Classifies tracer.queryExpr inner :=
    classifies_queryExpr inner
  calc (tracer.queryExpr context e).run state
      = ((tracer.traceExpr (tracer.maxDepth - state.depth) context e).value active, state) :=
        classifies_queryExpr state active same context e
    _ = (tracer.queryWith (tracer.querySymbolWith tracer.queryExpr context) e).run state :=
        (yields_queryWith_symbols deeper same context e).symm

theorem state_queryExpr (state : QueryState) (context : TraceContext) (e : Expr Site) :
    ((tracer.queryExpr context e).run state).2 = state := by
  obtain ⟨active, same⟩ := state.exists_matches
  exact (classifies_queryExpr state active same context e).state_eq

theorem yields_queryExpr (state : QueryState) (context : TraceContext) (e : Expr Site) :
    (tracer.queryExpr context e).Yields state ((tracer.queryExpr context e).run state).1 :=
  QueryM.yields_of_state_eq (state_queryExpr state context e)

/-- The operands of an expression are classified in the same state. -/
theorem yields_queryExpr_binary (state : QueryState) (context : TraceContext) (label : Site)
    (op : BinaryOp) (lhs rhs : Expr Site) (type : Option String) :
    (tracer.queryExpr context (.binary label op lhs rhs type)).Yields state
      (((tracer.queryExpr context lhs).run state).1.join
        ((tracer.queryExpr context rhs).run state).1) := by
  rw [queryExpr_eq context (.binary label op lhs rhs type), queryWith, ← queryExpr_eq,
    ← queryExpr_eq]
  exact (yields_queryExpr state context lhs).bind
    ((yields_queryExpr state context rhs).bind (QueryM.yields_pure _ _))

/-- Whatever a query classifies, and however it returns, it leaves the depth and what is being
    traced as it found them, from every state: this holds for expressions, for uses of symbols, and
    among these for uses of local variables and of fields. So the verdict on a right operand or on
    what was added to a variable is what it is without what was classified before. Queries go on
    with queries, and from the start they find the verdict on an expression. -/
theorem queries_restore (tracer : Tracer) (context : TraceContext) (state : QueryState) :
    (∀ e, ((tracer.queryExpr context e).run state).2 = state) ∧
    (∀ use symbol,
      ((tracer.querySymbolWith tracer.queryExpr context use symbol).run state).2 = state) ∧
    (∀ use symbol,
      ((tracer.queryLocalWith tracer.queryExpr context use symbol).run state).2 = state) ∧
    (∀ use symbol, ((tracer.queryFieldWith tracer.queryExpr use symbol).run state).2 = state) ∧
    (∀ e, tracer.queryExpr context e =
      tracer.queryWith (tracer.querySymbolWith tracer.queryExpr context) e) ∧
    (∀ label op lhs rhs type,
      (tracer.queryExpr context (.binary label op lhs rhs type)).run state =
        (((tracer.queryExpr context lhs).run state).1.join
          ((tracer.queryExpr context rhs).run state).1, state)) ∧
    (∀ verdict updates, (queryUpdatesWith (tracer.queryExpr context) verdict updates).run state =
      (Verdict.joinAll (fun update => ((tracer.queryExpr context update).run state).1) verdict
        updates, state)) ∧
    ∀ e, ((tracer.queryExpr context e).run .start).1 = tracer.classify context e := by
  obtain ⟨active, same⟩ := state.exists_matches
  have deeper (inner : QueryState) (_ : inner.depth = state.depth + 1)
      (_ : inner.depth ≤ tracer.maxDepth) : tracer.Classifies tracer.queryExpr inner :=
    classifies_queryExpr inner
  refine ⟨state_queryExpr state context,
    fun use symbol => (yields_querySymbolWith deeper same context use symbol).state_eq,
    fun use symbol => (yields_queryLocalWith deeper same context use symbol).state_eq,
    fun use symbol => (yields_queryFieldWith deeper same use symbol).state_eq,
    queryExpr_eq context, yields_queryExpr_binary state context,
    fun verdict updates => yields_queryUpdatesWith (yields_queryExpr state context) updates verdict,
    fun e => ?_⟩
  exact congrArg Prod.fst (classifies_queryExpr .start .idle QueryState.matches_start context e)

end Tracer

end BugPatterns
