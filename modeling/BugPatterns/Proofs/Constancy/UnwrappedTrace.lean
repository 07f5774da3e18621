import BugPatterns.Proofs.Constancy.Budget
import BugPatterns.Proofs.Constancy.UnwrappedDefinitions

/-!
# Traces without added parentheses

A trace looks through parentheses wherever it meets them: around the expression it starts from, the
receivers and arguments of calls, and the values of variables and fields. So the verdict on an
expression is the same, witness included, whether or not parentheses were added to the unit
(`Tracer.classify_unwrap`). Nodes have other numbers then, and the uses that are being traced are
remembered by those (`ActiveTraces.renumber`).
-/

namespace BugPatterns

variable {added : Site → Bool} {r : Nat → Nat}

/-- An expression is blamed under the same name. -/
theorem Expr.describe_unwrap {α β : Type} {added : α → Bool} {f : α → β} (e : Expr α) :
    (e.unwrap added f).describe = e.describe := by
  induction e using Expr.describe.induct with
  | case3 label callee args symbol type ih => exact ih
  | case5 label target position type ih => exact ih
  | case6 label inner type ih =>
      cases marked : added label with
      | true =>
          rw [unwrap_of_added marked]
          exact ih
      | false =>
          rw [unwrap_of_kept marked]
          exact ih
  | case7 label operand type ih => exact ih
  | case8 e noIdent noSelect noCall noCreation noIndex noParen noCast =>
      cases e with
      | creation label args body symbol type =>
          cases type with
          | none => rfl
          | some type => exact absurd rfl (noCreation _ _ _ _ _)
      | ident => exact absurd rfl (noIdent _ _ _ _)
      | select => exact absurd rfl (noSelect _ _ _ _ _)
      | call => exact absurd rfl (noCall _ _ _ _ _)
      | index => exact absurd rfl (noIndex _ _ _ _)
      | paren => exact absurd rfl (noParen _ _ _)
      | cast => exact absurd rfl (noCast _ _ _)
      | _ => rfl
  | _ => rfl

/-- An expression is blamed where it was before. -/
theorem Expr.blame_unwrap {e : Expr Site} (kept : e.isAdded added = false) (name : String)
    (origin : WitnessOrigin) :
    (e.unwrap added (Site.renumber r)).blame name origin = e.blame name origin := by
  unfold blame
  rw [label_unwrap kept]
  rfl

theorem Expr.blame_describe_unwrap {e : Expr Site} (kept : e.isAdded added = false)
    (origin : WitnessOrigin) :
    (e.unwrap added (Site.renumber r)).blame (e.unwrap added (Site.renumber r)).describe origin =
      e.blame e.describe origin := by
  rw [describe_unwrap, blame_unwrap kept]

/-- The traces with the uses under their new numbers. -/
def ActiveTraces.renumber (r : Nat → Nat) (active : ActiveTraces) : ActiveTraces :=
  ⟨active.uses.map r, active.fields⟩

namespace Tracer

variable {tracer : Tracer}

/-- The tracer of the unit without added parentheses. -/
def unwrap (added : Site → Bool) (r : Nat → Nat) (tracer : Tracer) : Tracer :=
  { tracer with loaded := tracer.loaded.unwrap added r }

/-- The context without added parentheses. -/
def unwrapContext (added : Site → Bool) (r : Nat → Nat) (context : TraceContext) : TraceContext :=
  context.map (MethodDecl.unwrap added (Site.renumber r))

section Calls

variable (wraps : tracer.loaded.unit.Wraps added)
include wraps

/-- A call has the same effect. -/
theorem callEffect?_unwrap {label : Site} {callee : Expr Site} {args : List (Expr Site)}
    {symbol type : Option String}
    (inUnit : .expr (.call label callee args symbol type) ∈ tracer.loaded.nodes) :
    (tracer.unwrap added r).callEffect?
        ((Expr.call label callee args symbol type).unwrap added (Site.renumber r))
        (callee.unwrap added (Site.renumber r)) =
      tracer.callEffect? (.call label callee args symbol type) callee := by
  have named := LoadedUnit.name?_unwrap wraps (r := r)
    (wraps.callee label callee args symbol type inUnit)
    (LoadedUnit.mem_nodes_of_child inUnit List.mem_cons_self)
  have candidates := LoadedUnit.callCandidates_unwrap wraps (r := r) inUnit
  simp only [callEffect?, unwrap, named, candidates]
  rfl

/-- The same objects are built from the arguments of their constructors. -/
theorem constructs_unwrap {creation : Expr Site} (inUnit : .expr creation ∈ tracer.loaded.nodes)
    (body : Option (ClassDecl Site)) :
    (tracer.unwrap added r).constructs (creation.unwrap added (Site.renumber r))
        (ClassDecl.unwrapOption added (Site.renumber r) body) =
      tracer.constructs creation body := by
  have typed := LoadedUnit.typeOf_unwrap wraps (r := r) inUnit
  simp only [constructs, unwrap, typed, ClassDecl.unwrapOption_eq_map, Option.isNone_map]
  rfl

end Calls

/-- Uses of symbols have the same verdicts in the unit without added parentheses. -/
structure UnwrapsUses (tracer : Tracer) (added : Site → Bool) (r : Nat → Nat)
    (onSymbol other : OnSymbol) (here there : ActiveTraces) : Prop where
  wraps : tracer.loaded.unit.Wraps added
  restores : ∀ e s, (onSymbol e s).Restores ∧ (other e s).Restores
  same : ∀ u s, .expr u ∈ tracer.loaded.nodes → u.isAdded added = false →
    (other (u.unwrap added (Site.renumber r)) s).value there = (onSymbol u s).value here

section Judge

variable {onSymbol other : OnSymbol} {here there : ActiveTraces}

/-- A use of a symbol is handed on, and blamed where no symbol is bound to it. -/
theorem use_unwrap (alike : tracer.UnwrapsUses added r onSymbol other here there)
    {e : Expr Site} (inUnit : .expr e ∈ tracer.loaded.nodes) (kept : e.isAdded added = false)
    (name : String) :
    (match (tracer.unwrap added r).loaded.symbolOf (e.unwrap added (Site.renumber r)) with
      | some symbol => (other (e.unwrap added (Site.renumber r)) symbol).value there
      | none => (e.unwrap added (Site.renumber r)).blame name .unresolved) =
    (match tracer.loaded.symbolOf e with
      | some symbol => (onSymbol e symbol).value here
      | none => e.blame name .unresolved) := by
  have bound : (tracer.unwrap added r).loaded.symbolOf (e.unwrap added (Site.renumber r)) =
      tracer.loaded.symbolOf e := LoadedUnit.symbolOf_unwrap kept
  rw [bound]
  cases tracer.loaded.symbolOf e with
  | none => exact Expr.blame_unwrap kept name .unresolved
  | some symbol => exact alike.same e symbol inUnit kept

mutual

/-- An expression is judged as before if the uses of symbols are. -/
theorem judge_unwrap (alike : tracer.UnwrapsUses added r onSymbol other here there)
    (e : Expr Site) (inUnit : .expr e ∈ tracer.loaded.nodes) :
    ((tracer.unwrap added r).judge other (e.unwrap added (Site.renumber r))).value there =
      (tracer.judge onSymbol e).value here := by
  have below {part : Expr Site} (child : .expr part ∈ (Node.expr e).children) :
      .expr part ∈ tracer.loaded.nodes := LoadedUnit.mem_nodes_of_child inUnit child
  rw [value_judge (fun e s => (alike.restores e s).1),
    value_judge (fun e s => (alike.restores e s).2)]
  cases e with
  | literal => rfl
  | paren label inner type =>
      have enclosed := judge_unwrap alike inner (below List.mem_cons_self)
      cases marked : added label with
      | true =>
          rw [Expr.unwrap_of_added marked, ← value_judge (fun e s => (alike.restores e s).2),
            compose]
          exact enclosed
      | false =>
          rw [Expr.unwrap_of_kept marked, compose, compose]
          exact enclosed
  | cast _ operand _ =>
      rw [Expr.unwrap, compose, compose]
      exact judge_unwrap alike operand (below List.mem_cons_self)
  | unary _ _ operand _ =>
      rw [Expr.unwrap, compose, compose]
      exact judge_unwrap alike operand (below List.mem_cons_self)
  | assign _ _ _ value _ =>
      rw [Expr.unwrap, compose, compose]
      exact judge_unwrap alike value (below (by simp [Node.children, Node.exprChildren]))
  | binary _ _ lhs rhs _ =>
      have left := judge_unwrap alike lhs (below List.mem_cons_self)
      have right := judge_unwrap alike rhs
        (below (by simp [Node.children, Node.exprChildren]))
      rw [Expr.unwrap, compose, compose, left, right]
  | conditional _ _ whenTrue whenFalse _ =>
      have left := judge_unwrap alike whenTrue
        (below (by simp [Node.children, Node.exprChildren]))
      have right := judge_unwrap alike whenFalse
        (below (by simp [Node.children, Node.exprChildren]))
      rw [Expr.unwrap, compose, compose, left, right]
  | ident label name symbol type => exact use_unwrap alike inUnit rfl name
  | select label target name symbol type => exact use_unwrap alike inUnit rfl name
  | call label callee args symbol type =>
      have effect := callEffect?_unwrap alike.wraps (r := r) inUnit
      have blamed := @Expr.blame_describe_unwrap added r (.call label callee args symbol type) rfl
        .call
      have direct := alike.wraps.callee label callee args symbol type inUnit
      have receiver := receiver_unwrap alike callee direct (below List.mem_cons_self)
      have all := joinAll_unwrap alike args fun part member =>
        below (List.mem_cons_of_mem _ (List.mem_map_of_mem member))
      simp only [Expr.unwrap] at effect blamed ⊢
      simp only [compose, effect]
      cases tracer.callEffect? (.call label callee args symbol type) callee with
      | none => exact blamed
      | some effect =>
          cases effect with
          | safe => rfl
          | propagate | mutate => rw [receiver, all]
  | creation label args body symbol type =>
      have constructs := constructs_unwrap alike.wraps (r := r) inUnit body
      have blamed := @Expr.blame_describe_unwrap added r (.creation label args body symbol type) rfl
        .call
      have all := joinAll_unwrap alike args fun part member =>
        below (List.mem_append_left _ (List.mem_map_of_mem member))
      simp only [Expr.unwrap] at constructs blamed ⊢
      simp only [compose, constructs]
      split
      · exact all _
      · exact blamed
  | index label target position type =>
      exact Expr.blame_describe_unwrap (e := .index label target position type) rfl .expression

theorem receiver_unwrap (alike : tracer.UnwrapsUses added r onSymbol other here there)
    (callee : Expr Site) (direct : callee.isAdded added = false)
    (inUnit : .expr callee ∈ tracer.loaded.nodes) :
    receiverValue (fun part => ((tracer.unwrap added r).judge other part).value there)
        (callee.unwrap added (Site.renumber r)) =
      receiverValue (fun part => (tracer.judge onSymbol part).value here) callee := by
  cases callee with
  | select _ target _ _ _ =>
      exact judge_unwrap alike target
        (LoadedUnit.mem_nodes_of_child inUnit List.mem_cons_self)
  | paren label inner type =>
      have direct : added label = false := direct
      rw [Expr.unwrap_of_kept direct]
      rfl
  | _ => rfl

theorem joinAll_unwrap (alike : tracer.UnwrapsUses added r onSymbol other here there)
    (es : List (Expr Site)) (inUnit : ∀ e ∈ es, .expr e ∈ tracer.loaded.nodes)
    (verdict : Verdict) :
    Verdict.joinAll (fun part => ((tracer.unwrap added r).judge other part).value there) verdict
        (Expr.unwrapAll added (Site.renumber r) es) =
      Verdict.joinAll (fun part => (tracer.judge onSymbol part).value here) verdict es := by
  cases es with
  | nil => rfl
  | cons e es =>
      obtain ⟨first, rest⟩ := List.forall_mem_cons.mp inUnit
      have joined := joinAll_unwrap alike es rest
      have here := judge_unwrap alike e first
      simp only [Expr.unwrapAll, Verdict.joinAll, List.foldl_cons, here] at joined ⊢
      exact joined _

end

end Judge

theorem capturedFrom?_unwrap (symbol : SymbolId) (context : TraceContext) :
    (tracer.unwrap added r).capturedFrom? symbol (unwrapContext added r context) =
      (tracer.capturedFrom? symbol context).map (MethodDecl.unwrap added (Site.renumber r)) :=
  @capturedFrom?_map tracer (tracer.unwrap added r) _ rfl MethodDecl.symbol_unwrap
    (Declarations.method?_unwrap _) symbol context

theorem initializer?_unwrap (symbol : SymbolId) :
    (tracer.unwrap added r).initializer? symbol =
      (tracer.initializer? symbol).map (Expr.unwrap added (Site.renumber r)) :=
  Declarations.init_field?_unwrap _ _

/-- An initializer is part of the unit. -/
theorem mem_nodes_of_initializer? (coherent : tracer.loaded.Coherent) {symbol : SymbolId}
    {init : Expr Site} (found : tracer.initializer? symbol = some init) :
    .expr init ∈ tracer.loaded.nodes := by
  obtain ⟨decl, looked, present⟩ := Option.bind_eq_some_iff.mp found
  obtain ⟨c, listed, member, -⟩ := coherent.field_of_field? looked
  have declListed : .varDecl decl ∈ tracer.loaded.nodes :=
    LoadedUnit.mem_nodes_of_child listed (c.mem_children_of_mem_fields member)
  exact LoadedUnit.mem_nodes_of_child declListed (by simp [Node.children, present])

/-- With so many steps left, expressions of the unit have the same verdicts in the unit without
    added parentheses. -/
def Unwraps (tracer : Tracer) (added : Site → Bool) (r : Nat → Nat) (depth : Nat) : Prop :=
  ∀ context e active, tracer.InUnit context → .expr e ∈ tracer.loaded.nodes →
    ((tracer.unwrap added r).traceExpr depth (unwrapContext added r context)
        (e.unwrap added (Site.renumber r))).value (active.renumber r) =
      (tracer.traceExpr depth context e).value active

section Trace

variable (coherent : tracer.loaded.Coherent) (wraps : tracer.loaded.unit.Wraps added)
  (injective : Function.Injective r) {context : TraceContext} {use : Expr Site} {symbol : SymbolId}
  {active : ActiveTraces} {depth : Nat}

section Definitions

include coherent wraps injective

/-- The same definitions reach a use. -/
theorem definitionsOf_unwrap (listed : tracer.InUnit context)
    (inUnit : .expr use ∈ tracer.loaded.nodes) (kept : use.isAdded added = false)
    (symbol : SymbolId) :
    (tracer.unwrap added r).definitionsOf (unwrapContext added r context)
        (use.unwrap added (Site.renumber r)) symbol =
      ((tracer.definitionsOf context use symbol).1.map (Definitions.unwrap added r),
        unwrapContext added r (tracer.definitionsOf context use symbol).2) := by
  refine definitionsOf_map (fun _ => rfl) (capturedFrom?_unwrap symbol context)
    (fun method around => ?_) (fun outer captured => ?_)
  · exact LoadedUnit.reachingDefinitions_unwrap coherent wraps injective (listed method around)
      inUnit kept _ _
  · obtain ⟨key, looked⟩ := declared_of_capturedFrom? captured
    exact LoadedUnit.capturedDefinitions_unwrap coherent wraps injective
      (coherent.mem_nodes_of_method? looked) inUnit kept _ _

end Definitions

theorem undefinedUse_unwrap (kept : use.isAdded added = false) (symbol : SymbolId) :
    (tracer.unwrap added r).undefinedUse (use.unwrap added (Site.renumber r)) symbol =
      tracer.undefinedUse use symbol :=
  Expr.blame_unwrap kept _ _

theorem unsafeField_unwrap (kept : use.isAdded added = false) (symbol : SymbolId) :
    (tracer.unwrap added r).unsafeField (use.unwrap added (Site.renumber r)) symbol =
      tracer.unsafeField use symbol :=
  Expr.blame_unwrap kept _ _

/-- The same values settle the same verdict. -/
theorem settle_unwrap {value other : Expr Site → Verdict} {found : Option Definitions}
    (same : ∀ definitions ∈ found, ∀ e ∈ definitions.values,
      other (e.unwrap added (Site.renumber r)) = value e) :
    (found.map (Definitions.unwrap added r)).bind (settle other) = found.bind (settle value) := by
  cases found with
  | none => rfl
  | some definitions =>
      have same := same definitions rfl
      obtain ⟨latest, updates⟩ := definitions
      cases latest with
      | none => rfl
      | some latest =>
          obtain ⟨first, rest⟩ := List.forall_mem_cons.mp same
          have joined (verdict : Verdict) : Verdict.joinAll other verdict
              (updates.map (Expr.unwrap added (Site.renumber r))) =
              Verdict.joinAll value verdict updates := by
            rw [Verdict.joinAll_map]
            exact Verdict.joinAll_congr rest verdict
          simp only [settle, Definitions.unwrap, Option.map_some, Option.bind_some, first, joined]

include coherent wraps injective

theorem traceLocal_unwrap (deeper : ∀ less, depth = less + 1 → tracer.Unwraps added r less)
    (listed : tracer.InUnit context) (inUnit : .expr use ∈ tracer.loaded.nodes)
    (kept : use.isAdded added = false) (symbol : SymbolId) :
    ((tracer.unwrap added r).traceLocal ((tracer.unwrap added r).deeper depth)
        (unwrapContext added r context) (use.unwrap added (Site.renumber r)) symbol).value
          (active.renumber r) =
      (tracer.traceLocal (tracer.deeper depth) context use symbol).value active := by
  have number : (use.unwrap added (Site.renumber r)).label.number = r use.label.number := by
    rw [Expr.label_unwrap kept]
    rfl
  have met : (use.unwrap added (Site.renumber r)).label.number ∈ (active.renumber r).uses ↔
      use.label.number ∈ active.uses := by
    rw [number]
    exact List.mem_map_of_injective injective
  refine (traceLocal_rel_between (R := fun a b => b = a) (fun _ => rfl)
    (undefinedUse_unwrap kept symbol) met fun less same => ?_)
  rw [definitionsOf_unwrap coherent wraps injective listed inUnit kept, undefinedUse_unwrap kept,
    number]
  refine congrArg (Option.getD · _) (settle_unwrap fun found reaching e member => ?_)
  obtain ⟨innerListed, valuesInUnit⟩ := listed.of_definitionsOf coherent reaching
  exact deeper less same _ e ⟨use.label.number :: active.uses, active.fields⟩ innerListed
    (valuesInUnit e member)

omit wraps injective in
theorem traceField_unwrap (deeper : ∀ less, depth = less + 1 → tracer.Unwraps added r less)
    (kept : use.isAdded added = false) (symbol : SymbolId) :
    ((tracer.unwrap added r).traceField ((tracer.unwrap added r).deeper depth)
        (use.unwrap added (Site.renumber r)) symbol).value (active.renumber r) =
      (tracer.traceField (tracer.deeper depth) use symbol).value active := by
  exact traceField_rel_between (R := fun a b => b = a) (fun _ => rfl)
    (fun same => congrArg _ same) rfl (unsafeField_unwrap kept symbol) (initializer?_unwrap symbol)
    rfl fun less init same found => deeper less same none init
      ⟨active.uses, symbol :: active.fields⟩ (fun _ absurd => by cases absurd)
      (mem_nodes_of_initializer? coherent found)

theorem traceSymbol_unwrap (deeper : ∀ less, depth = less + 1 → tracer.Unwraps added r less)
    (listed : tracer.InUnit context) (inUnit : .expr use ∈ tracer.loaded.nodes)
    (kept : use.isAdded added = false) (symbol : SymbolId) :
    ((tracer.unwrap added r).traceSymbol ((tracer.unwrap added r).deeper depth)
        (unwrapContext added r context) (use.unwrap added (Site.renumber r)) symbol).value
          (active.renumber r) =
      (tracer.traceSymbol (tracer.deeper depth) context use symbol).value active := by
  exact traceSymbol_rel_between (R := fun a b => b = a) (fun _ => rfl) rfl (Expr.blame_unwrap kept)
    (fun _ => traceLocal_unwrap coherent wraps injective deeper listed inUnit kept symbol)
    (traceField_unwrap coherent deeper kept symbol)

/-- With any number of steps left, expressions have the same verdicts. -/
theorem unwraps (depth : Nat) : tracer.Unwraps added r depth := by
  induction depth using Nat.strong_induction_on with
  | _ depth ih =>
      intro context e active listed inUnit
      rw [traceExpr_eq, traceExpr_eq]
      refine judge_unwrap ⟨wraps, fun e s => ⟨restores_deeper _ _ _ _, restores_deeper _ _ _ _⟩,
        fun u s member kept => ?_⟩ e inUnit
      exact traceSymbol_unwrap coherent wraps injective (fun less same => ih less (by omega)) listed
        member kept s

/-- Without added parentheses the verdict on an expression is the same, its witness included. -/
theorem classify_unwrap (listed : tracer.InUnit context) {e : Expr Site}
    (inUnit : .expr e ∈ tracer.loaded.nodes) :
    (tracer.unwrap added r).classify (unwrapContext added r context)
        (e.unwrap added (Site.renumber r)) = tracer.classify context e :=
  unwraps coherent wraps injective tracer.maxDepth context e .idle listed inUnit

end Trace

end Tracer

end BugPatterns
