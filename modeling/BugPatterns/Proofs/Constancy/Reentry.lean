import BugPatterns.Check.Registry
import BugPatterns.Proofs.Constancy.Budget
import BugPatterns.Proofs.Constancy.Depth
import BugPatterns.Proofs.Constancy.Watch

/-!
# No use is entered twice

The trace of an argument of a call meets the uses of local variables in order: in a method each one
lies before those that lead to it, and the uses in initializers of fields are none of those. So a
trace never comes back to a use that it is busy with, and with more depth than the unit has nodes it
ends by itself (`Registry.traces_in_order`).

The measure is the number of uses before the one at hand, together with the number of fields that
are not being traced: following a use to a definition lowers the first, also where the definition
is in an outer method, and following a field to its initializer lowers the second.
-/

namespace BugPatterns

namespace Tracer

variable {tracer : Tracer} {alarm : Alarm} {bottom : TraceStep}

/-- In order, a watched use of a symbol is traced. -/
theorem run_watchSymbol {deeper : Option TraceStep} {context : TraceContext} {use : Expr Site}
    {symbol : SymbolId} {active : ActiveTraces}
    (ordered : tracer.loaded.model.isLocalVariable symbol → InOrder context use active) :
    (tracer.watchSymbol alarm deeper context use symbol).run active =
      (tracer.traceSymbol deeper context use symbol).run active := by
  have unwatched : ¬ (tracer.loaded.model.isLocalVariable symbol ∧ ¬ InOrder context use active) :=
    fun ⟨isLocal, disorder⟩ => disorder (ordered isLocal)
  show StateT.run (if tracer.loaded.model.isLocalVariable symbol ∧ ¬ InOrder context use active
    then _ else _) active = _
  rw [if_neg unwatched]

/-- A watched trace follows a trace if it has the same depth and ends in the same way, or if both
    have more depth than is needed. -/
def Follows (tracer : Tracer) (alarm : Alarm) (bottom : TraceStep) (needed depth more : Nat) :
    Prop :=
  bottom = tracer.watchLast alarm ∧ depth = more ∨ needed < depth ∧ needed < more

/-- Either both traces are at their end, or both can take a step and need less after it. -/
theorem Follows.step {needed depth more : Nat}
    (follows : tracer.Follows alarm bottom needed depth more) :
    bottom = tracer.watchLast alarm ∧ depth = 0 ∧ more = 0 ∨
      ∃ less lesser, depth = less + 1 ∧ more = lesser + 1 ∧
        ∀ fewer < needed, tracer.Follows alarm bottom fewer less lesser := by
  rcases follows with ⟨last, rfl⟩ | ⟨enough, moreEnough⟩
  · cases depth with
    | zero => exact Or.inl ⟨last, rfl, rfl⟩
    | succ depth => exact Or.inr ⟨depth, depth, rfl, rfl, fun _ _ => Or.inl ⟨last, rfl⟩⟩
  · refine Or.inr ⟨depth - 1, more - 1, by omega, by omega, fun fewer lower => Or.inr ?_⟩
    omega

theorem Follows.mono {needed fewer depth more : Nat}
    (follows : tracer.Follows alarm bottom needed depth more) (le : fewer ≤ needed) :
    tracer.Follows alarm bottom fewer depth more :=
  follows.imp_right fun ⟨enough, moreEnough⟩ =>
    ⟨Nat.lt_of_le_of_lt le enough, Nat.lt_of_le_of_lt le moreEnough⟩

/-- A watched trace runs like the trace it follows, if the uses at hand come in order and the
    watched traces of the values run like those of the trace. -/
theorem run_watchExpr {needed depth more : Nat}
    (follows : tracer.Follows alarm bottom needed depth more) {context : TraceContext}
    {e : Expr Site} {active : ActiveTraces}
    (ordered : ∀ u ∈ tracer.leaves e, ∀ s, tracer.loaded.symbolOf u = some s →
      tracer.loaded.model.isLocalVariable s → InOrder context u active)
    (onLocal : ∀ less lesser, depth = less + 1 →
      (∀ fewer < needed, tracer.Follows alarm bottom fewer less lesser) →
      ∀ u ∈ tracer.leaves e, ∀ s, tracer.loaded.symbolOf u = some s →
      ∀ found, (tracer.definitionsOf context u s).1 = some found →
      ∀ d, found.latest = some d ∨ d ∈ found.updates →
        (tracer.watchExpr alarm bottom less (tracer.definitionsOf context u s).2 d).run
            { active with uses := u.label.number :: active.uses } =
          (tracer.traceExpr lesser (tracer.definitionsOf context u s).2 d).run
            { active with uses := u.label.number :: active.uses })
    (onField : ∀ less lesser, depth = less + 1 →
      (∀ fewer < needed, tracer.Follows alarm bottom fewer less lesser) →
      ∀ u ∈ tracer.leaves e, ∀ s, tracer.loaded.symbolOf u = some s →
      ∀ init, tracer.initializer? s = some init → s ∉ active.fields →
        (tracer.watchExpr alarm bottom less none init).run
            { active with fields := s :: active.fields } =
          (tracer.traceExpr lesser none init).run { active with fields := s :: active.fields }) :
    (tracer.watchExpr alarm bottom depth context e).run active =
      (tracer.traceExpr more context e).run active := by
  rw [traceExpr_eq]
  rcases follows.step with ⟨last, rfl, rfl⟩ | ⟨less, lesser, rfl, rfl, next⟩
  · rw [watchExpr, last]
    exact run_judge_congr (restores_deeper _ _) e fun u leaf s bound =>
      run_watchSymbol (ordered u leaf s bound)
  · rw [watchExpr]
    refine run_judge_congr (restores_deeper _ _) e fun u leaf s bound => ?_
    rw [run_watchSymbol (ordered u leaf s bound)]
    exact run_traceSymbol_congr (restores_traceExpr lesser)
      (fun _ => onLocal less lesser rfl next u leaf s bound)
      (onField less lesser rfl next u leaf s bound)

/-- The leaves of an initializer lie in it. -/
theorem initializerNumber_of_leaf {symbol : SymbolId} {init u : Expr Site}
    (found : tracer.initializer? symbol = some init) (leaf : u ∈ tracer.leaves init) :
    tracer.loaded.InitializerNumber u.label.number := by
  obtain ⟨key, decl, declared, inside⟩ := heldByInitializer_of_initializer? found
  exact ⟨key, decl, _, declared, Node.ownNodes_trans (mem_ownNodes_of_leaf init u leaf) inside, rfl⟩

/-- Outside of methods a local variable has no definitions. -/
theorem definitionsOf_none (use : Expr Site) (symbol : SymbolId) :
    (tracer.definitionsOf none use symbol).1 = none := rfl

/-- Outside of methods, a trace meets uses in order and needs a step for each field that it is not
    busy with. -/
theorem run_detached (coherent : tracer.loaded.Coherent) (depth : Nat) :
    ∀ {more : Nat} {uses : List Nat} {fields : List SymbolId} {e : Expr Site},
      tracer.TracedFields fields →
      tracer.Follows alarm bottom (tracer.loaded.fieldBound - fields.length) depth more →
      (∀ n ∈ uses, ¬ tracer.loaded.InitializerNumber n) →
      (∀ u ∈ tracer.leaves e, u.label.number ∉ uses) →
      (tracer.watchExpr alarm bottom depth none e).run ⟨uses, fields⟩ =
        (tracer.traceExpr more none e).run ⟨uses, fields⟩ := by
  induction depth with
  | zero =>
      intro more uses fields e _ follows _ apart
      exact run_watchExpr follows
        (fun u leaf _ _ _ => ⟨apart u leaf, fun absurd => by cases absurd⟩)
        (fun _ _ absurd => by cases absurd) (fun _ _ absurd => by cases absurd)
  | succ depth ih =>
      intro more uses fields e traced follows usesFree apart
      refine run_watchExpr follows
        (fun u leaf _ _ _ => ⟨apart u leaf, fun absurd => by cases absurd⟩) ?_ ?_
      · intro _ _ _ _ u _ s _ found reaching
        rw [definitionsOf_none] at reaching
        cases reaching
      · intro less lesser same next u leaf s bound init found fresh
        obtain rfl := Nat.succ.inj same
        have inner := traced.cons coherent bound found fresh
        have listed := inner.length_le coherent
        have lower : tracer.loaded.fieldBound - (s :: fields).length <
            tracer.loaded.fieldBound - fields.length := by
          rw [List.length_cons] at listed ⊢
          omega
        exact ih inner (next _ lower) usesFree fun v vLeaf again =>
          usesFree _ again (initializerNumber_of_leaf found vLeaf)

/-- A use in a method, before a bound. -/
structure UsedBefore (tracer : Tracer) (bound : Nat) (u : Expr Site) : Prop where
  listed : .expr u ∈ tracer.loaded.nodes
  before : u.label.number < bound
  apart : ¬ tracer.loaded.InitializerNumber u.label.number

/-- In a method, a trace meets uses in order and needs a step for each earlier use and one for each
    field. -/
theorem run_inMethod (coherent : tracer.loaded.Coherent) (bound : Nat) :
    ∀ {depth more : Nat} {uses : List Nat} {method : MethodDecl Site} {e : Expr Site},
      .method method ∈ tracer.loaded.nodes →
      (∀ u ∈ tracer.leaves e, tracer.UsedBefore bound u) →
      tracer.Follows alarm bottom (tracer.loaded.usesBelow bound + tracer.loaded.fieldBound)
        depth more →
      tracer.UsesFrom bound uses →
      (tracer.watchExpr alarm bottom depth (some method) e).run ⟨uses, []⟩ =
        (tracer.traceExpr more (some method) e).run ⟨uses, []⟩ := by
  induction bound using Nat.strong_induction_on with
  | _ bound ih =>
      intro depth more uses method e listed placed follows usesFrom
      have earlier {u : Expr Site} (leaf : u ∈ tracer.leaves e) :
          ∀ n ∈ uses, u.label.number < n := fun n member =>
        Nat.lt_of_lt_of_le (placed u leaf).before (usesFrom n member).1
      have fresh {u : Expr Site} (leaf : u ∈ tracer.leaves e) : u.label.number ∉ uses :=
        fun again => Nat.lt_irrefl _ (earlier leaf _ again)
      refine run_watchExpr follows (fun u leaf _ _ _ => ⟨fresh leaf, fun _ => earlier leaf⟩) ?_ ?_
      · intro less lesser _ next u leaf s _ found reaching d part
        obtain ⟨uListed, uBefore, uApart⟩ := placed u leaf
        have uLess := LoadedUnit.usesBelow_lt uListed uBefore
        obtain ⟨holder, context, holderListed, held⟩ :=
          values_of_definitionsOf coherent listed reaching
        obtain ⟨dHeld, dBefore⟩ := held d (found.mem_values part)
        rw [context]
        refine ih _ uBefore holderListed (fun v vLeaf => ?_) (next _ (by omega)) ?_
        · have own := mem_ownNodes_of_leaf d v vLeaf
          have vHeld := MethodDecl.mem_bodyNodes_trans dHeld own
          exact ⟨LoadedUnit.mem_nodes_of_bodyNode holderListed vHeld, dBefore _ own,
            coherent.not_initializerNumber holderListed vHeld⟩
        · refine List.forall_mem_cons.mpr ⟨⟨Nat.le_refl _, uApart⟩, fun n member => ?_⟩
          exact ⟨Nat.le_of_lt (earlier leaf n member), (usesFrom n member).2⟩
      · intro less lesser _ next u leaf s names init found unmet
        have traced := tracedFields_nil.cons coherent names found unmet
        have some := traced.length_le coherent
        have lower : tracer.loaded.fieldBound - [s].length <
            tracer.loaded.usesBelow bound + tracer.loaded.fieldBound := by
          rw [List.length_singleton] at some ⊢
          omega
        exact run_detached coherent less traced (next _ lower)
          (fun n member => (usesFrom n member).2)
          fun v vLeaf again => (usesFrom _ again).2 (initializerNumber_of_leaf found vLeaf)

/-- A trace of an expression of the unit, in the context of the method that directly contains it,
    meets uses in order. -/
theorem run_idle (coherent : tracer.loaded.Coherent) {scopes : List Scope} {e : Expr Site}
    (met : (scopes, .expr e) ∈ tracer.loaded.scopedNodes) {depth more : Nat}
    (follows : tracer.Follows alarm bottom tracer.loaded.nodes.length depth more) :
    (tracer.watchExpr alarm bottom depth (scopes.head?.bind Scope.method?) e).run .idle =
      (tracer.traceExpr more (scopes.head?.bind Scope.method?) e).run .idle := by
  have budget := tracer.loaded.usesBelow_add_fieldBound_le tracer.loaded.nodes.length
  cases context : scopes.head?.bind Scope.method? with
  | none =>
      exact run_detached coherent depth tracedFields_nil (follows.mono (by omega))
        (List.forall_mem_nil _) fun _ _ absurd => by cases absurd
  | some method =>
      obtain ⟨inner, head, isMethod⟩ := Option.bind_eq_some_iff.mp context
      obtain ⟨rest, rfl⟩ := List.head?_eq_some_iff.mp head
      obtain rfl : inner = .method method := by
        cases inner with
        | method decl => exact congrArg Scope.method (Option.some.inj isMethod)
        | classDecl decl => cases isMethod
      refine run_inMethod coherent _ (LoadedUnit.mem_nodes_of_scope met List.mem_cons_self)
        (fun u leaf => ?_) (follows.mono budget) (List.forall_mem_nil _)
      have placed := LoadedUnit.mem_scopedNodes_of_own met rfl (mem_ownNodes_of_leaf e u leaf)
      have listed := LoadedUnit.mem_nodes_of_scoped placed
      exact ⟨listed, coherent.number_lt listed, coherent.not_initializerNumber_of_scope placed⟩

end Tracer

/-- Every trace of an argument of a call that is shown to a check meets the uses of local variables
    in order, so no use is ever traced while it is being traced already: guards at all uses raise no
    alarm. The order is that of the walk, in which the nodes are numbered. With more depth than
    the unit has nodes, what would take over at the end of the depth is never run either, and the
    verdict is the same for every such depth. -/
theorem Registry.traces_in_order {document : UnitDocument} {loaded : LoadedUnit}
    (made : LoadedUnit.ofDocument document = .ok loaded) {registry : Registry} {catalog : Catalog}
    {maxDepth : Nat} {showing : Showing}
    (shown : showing ∈ registry.showings loaded catalog maxDepth) {label : Site}
    {callee : Expr Site} {args : List (Expr Site)} {symbol type : Option String}
    (call : showing.node = .expr (.call label callee args symbol type)) {e : Expr Site}
    (arg : e ∈ args) :
    let tracer : Tracer := ⟨loaded, catalog, maxDepth⟩
    let context := showing.here.enclosingMethod
    (loaded.nodes.map Node.number = List.range loaded.nodes.length) ∧
    (∀ depth alarm, (tracer.watchExpr alarm (tracer.watchLast alarm) depth context e).run .idle =
      (tracer.traceExpr depth context e).run .idle) ∧
    (∀ depth > loaded.nodes.length, ∀ more > loaded.nodes.length, ∀ alarm bottom,
      (tracer.watchExpr alarm bottom depth context e).run .idle =
        (tracer.traceExpr more context e).run .idle) ∧
    (showing.here.classify e = ((tracer.traceExpr maxDepth context e).run .idle).1) ∧
    ∀ more > loaded.nodes.length, maxDepth > loaded.nodes.length →
      Tracer.classify ⟨loaded, catalog, more⟩ context e = showing.here.classify e := by
  have coherent := LoadedUnit.coherent_ofDocument made
  obtain ⟨⟨scopes, node⟩, met, listed⟩ := List.mem_flatMap.mp shown
  obtain ⟨check, -, rfl⟩ := List.mem_map.mp listed
  obtain rfl : node = .expr (.call label callee args symbol type) := call
  have placed : (scopes, .expr e) ∈ loaded.scopedNodes := by
    have child : .expr e ∈ (Node.expr (.call label callee args symbol type)).children :=
      List.mem_cons_of_mem _ (List.mem_map_of_mem arg)
    exact LoadedUnit.mem_scopedNodes_of_child met child rfl (Node.mem_ownNodes_self _)
  intro tracer context
  have deep : ∀ depth > loaded.nodes.length, ∀ more > loaded.nodes.length, ∀ alarm bottom,
      (tracer.watchExpr alarm bottom depth context e).run .idle =
        (tracer.traceExpr more context e).run .idle := fun depth enough more moreEnough _ _ =>
    Tracer.run_idle coherent placed (Or.inr ⟨enough, moreEnough⟩)
  refine ⟨coherent.numbers,
    fun depth alarm => Tracer.run_idle coherent placed (Or.inl ⟨rfl, rfl⟩), deep, rfl,
    fun more moreEnough enough => ?_⟩
  have same : (Tracer.mk loaded catalog more).traceExpr more = tracer.traceExpr more :=
    tracer.traceExpr_withDepth more more
  -- both run like a watched trace of some other depth that is enough
  have first := deep more moreEnough more moreEnough (fun _ _ _ => pure .constant)
    (fun _ _ => pure .constant)
  have second := deep more moreEnough maxDepth enough (fun _ _ _ => pure .constant)
    (fun _ _ => pure .constant)
  show (((Tracer.mk loaded catalog more).traceExpr more context e).run .idle).1 =
    ((tracer.traceExpr maxDepth context e).run .idle).1
  rw [same, ← first, second]

/-- The first argument of a call. -/
def Node.argument? : Node Site → Option (Expr Site)
  | .expr (.call _ _ args _ _) => args.head?
  | _ => none

theorem Node.exists_call_of_argument? {n : Node Site} {e : Expr Site}
    (found : n.argument? = some e) : ∃ label callee args symbol type,
      n = .expr (.call label callee args symbol type) ∧ e ∈ args := by
  unfold argument? at found
  split at found
  · exact ⟨_, _, _, _, _, rfl, List.mem_of_mem_head? found⟩
  · cases found

/-- A check that is shown calls. -/
def Check.ofCalls : Check where
  key := "X1"
  title := "calls"
  severity := .minor
  tags := []
  kinds := [.methodInvocation]
  visit _ _ := .nothing

/-- Text from a parameter is extended by the previous text and passed to a call. -/
def UnitDocument.passing : UnitDocument where
  model := ⟨[⟨"p.Q", .ordinary, none, [], none,
    [⟨"m", none, .method, false, false, none, none, [⟨"p", none, none⟩], [⟨"s", none, none⟩]⟩]⟩]⟩
  tree :=
    let p : Expr Span := .ident ⟨1, 1, 1, 2⟩ "p" (some "p.Q#m.p") none
    let s (line : UInt32) : Expr Span := .ident ⟨line, 1, line, 2⟩ "s" (some "p.Q#m.s") none
    let log : Expr Span := .ident .unknown "log" none none
    ⟨"Q.java", none, [⟨.unknown, .ordinary, some "Q", some "p.Q", [.method
      ⟨.unknown, "m", some "p.Q#m", [⟨.unknown, "p", some "p.Q#m.p", none, none⟩], some ⟨.unknown,
        [.varDecl ⟨.unknown, "s", some "p.Q#m.s", none, some p⟩,
          .expression .unknown (.assign .unknown .assign (s 2)
            (.binary .unknown .plus (s 2) (s 2) none) none),
          .expression .unknown (.call .unknown log [s 3] none none)]⟩⟩]⟩]⟩

theorem Registry.traces_in_order_passing : ∃ loaded showing e,
    LoadedUnit.ofDocument .passing = .ok loaded ∧
      showing ∈ Registry.showings ⟨[.ofCalls], [(.methodInvocation, [0])]⟩ loaded .empty 32 ∧
      (∃ label callee args symbol type,
        showing.node = .expr (.call label callee args symbol type) ∧ e ∈ args) ∧
      (∀ alarm,
        ((Tracer.mk loaded .empty 32).watchExpr alarm
            ((Tracer.mk loaded .empty 32).watchLast alarm) 32
            showing.here.enclosingMethod e).run .idle =
          ((Tracer.mk loaded .empty 32).traceExpr 32 showing.here.enclosingMethod e).run .idle) ∧
      showing.here.classify e = .blame "p" ⟨1, 1, 1, 2⟩ .parameter ∧
      Tracer.classify ⟨loaded, .empty, 18446744073709551615⟩ showing.here.enclosingMethod e =
        showing.here.classify e := by
  have evaluated : ((LoadedUnit.ofDocument .passing).toOption.bind fun loaded =>
      (Registry.showings ⟨[.ofCalls], [(.methodInvocation, [0])]⟩ loaded .empty 32).head?.bind
        fun showing => showing.node.argument?.map fun e => decide (loaded.nodes.length < 32 ∧
          showing.here.classify e = .blame "p" ⟨1, 1, 1, 2⟩ .parameter)) = some true := by
    decide +kernel
  obtain ⟨loaded, made, evaluated⟩ := exists_ok_of_toOption_bind evaluated
  obtain ⟨showing, first, evaluated⟩ := Option.bind_eq_some_iff.mp evaluated
  obtain ⟨e, argument, checked⟩ := Option.map_eq_some_iff.mp evaluated
  obtain ⟨few, verdict⟩ := of_decide_eq_true checked
  obtain ⟨label, callee, args, symbol, type, call, arg⟩ := Node.exists_call_of_argument? argument
  have shown := List.mem_of_mem_head? first
  obtain ⟨-, watched, -, -, deeper⟩ := traces_in_order made shown call arg
  exact ⟨loaded, showing, e, made, shown, ⟨label, callee, args, symbol, type, call, arg⟩,
    watched 32, verdict, deeper 18446744073709551615 (by omega) few⟩

end BugPatterns
