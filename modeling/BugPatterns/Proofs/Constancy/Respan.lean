import BugPatterns.Proofs.Constancy.Scan
import BugPatterns.Proofs.Constancy.Steps
import BugPatterns.Proofs.Unit.Respan

/-!
# Traces with other spans

Nodes are told apart by their numbers. So with other spans a search finds the same definitions, and
a trace comes to the same verdict, each with the other spans (`DefinitionSearch.run_respan`,
`Tracer.classify_respan`).
-/

namespace BugPatterns

variable {g : Span → Span}

/-- The call is looked up through the same types. -/
theorem LoadedUnit.callCandidates_respan (loaded : LoadedUnit) (call : Expr Site) :
    (loaded.respan g).callCandidates (call.relabel (Site.respan g)) =
      loaded.callCandidates call := by
  unfold callCandidates
  rw [symbolOf_respan]
  cases call with
  | call label callee args symbol type =>
      rw [Expr.relabel_call]
      cases callee with
      | select => simp only [Expr.relabel_select, typeOf_respan, model_respan]
      | call => rw [Expr.relabel_call]; rfl
      | creation => rw [Expr.relabel_creation]; rfl
      | _ => rfl
  | creation => rw [Expr.relabel_creation]; rfl
  | _ => rfl

/-- The event with other spans. -/
def DefinitionEvent.respan (g : Span → Span) : DefinitionEvent → DefinitionEvent
  | .replace value => .replace (value.relabel (Site.respan g))
  | .extend values => .extend (values.map (Expr.relabel (Site.respan g)))

/-- The definitions with other spans. -/
def Definitions.respan (g : Span → Span) (found : Definitions) : Definitions :=
  ⟨found.latest.map (Expr.relabel (Site.respan g)),
    found.updates.map (Expr.relabel (Site.respan g))⟩

theorem Definitions.apply_respan (found : Definitions) (event : DefinitionEvent) :
    (found.respan g).apply (event.respan g) = (found.apply event).respan g := by
  cases event with
  | replace value => rfl
  | extend values => simp only [apply, DefinitionEvent.respan, respan, List.map_append]

/-- The scan with other spans. -/
def DefinitionScan.respan (g : Span → Span) (scan : DefinitionScan) : DefinitionScan :=
  ⟨scan.reached, scan.found.respan g⟩

/-- The step with other spans. -/
def WalkStep.respan (g : Span → Span) : WalkStep → WalkStep
  | .enter n => .enter (n.relabel (Site.respan g))
  | .leave n => .leave (n.relabel (Site.respan g))

theorem Node.walk_respan (captured : Bool) (n : Node Site) :
    (n.relabel (Site.respan g)).walk captured = (n.walk captured).map (WalkStep.respan g) := by
  induction n using Node.induct with
  | node n ih =>
      cases entered : n.isClassDecl with
      | false =>
          have same : (n.relabel (Site.respan g)).isClassDecl = false := by
            rw [isClassDecl_relabel, entered]
          rw [walk_eq captured same, walk_eq captured entered, children_relabel, List.flatMap_map,
            List.flatMap_congr ih]
          simp [List.map_flatMap, WalkStep.respan]
      | true =>
          cases n with
          | classDecl decl =>
              rw [relabel_classDecl, walk_classDecl, ← relabel_classDecl, children_relabel,
                walk_classDecl]
              cases captured <;>
                simp [preorder_relabel, List.flatMap_map, List.map_flatMap, Function.comp_def,
                  WalkStep.respan]
          | _ => cases entered

namespace DefinitionSearch

variable {search : DefinitionSearch}

/-- The search in the unit with other spans. -/
def respan (g : Span → Span) (search : DefinitionSearch) : DefinitionSearch :=
  { search with loaded := search.loaded.respan g }

theorem namesVariable_respan (e : Expr Site) :
    (search.respan g).namesVariable (e.relabel (Site.respan g)) = search.namesVariable e := by
  unfold namesVariable
  rw [Expr.stripParens_relabel]
  cases e.stripParens with
  | ident label name symbol type => cases symbol <;> rfl
  | call => rw [Expr.relabel_call]
  | creation => rw [Expr.relabel_creation]
  | _ => rfl

theorem mutates_respan (call : Expr Site) (method : String) :
    (search.respan g).mutates (call.relabel (Site.respan g)) method =
      search.mutates call method := by
  unfold mutates respan
  rw [LoadedUnit.callCandidates_respan]
  rfl

theorem isRooted_respan (e : Expr Site) :
    (search.respan g).isRooted (e.relabel (Site.respan g)) = search.isRooted e := by
  induction e using isRooted.induct with
  | case1 label inner type ih => exact ih
  | case2 label select target name member memberType args symbol type ih =>
      have mutates := @mutates_respan g search
        (.call label (.select select target name member memberType) args symbol type) name
      rw [Expr.relabel_call, Expr.relabel_select] at mutates ⊢
      rw [isRooted, mutates, ih, isRooted]
  | case3 label callee args symbol type direct =>
      rw [Expr.relabel_call]
      cases callee with
      | select => exact absurd rfl (direct _ _ _ _ _)
      | call => rw [Expr.relabel_call]; rfl
      | creation => rw [Expr.relabel_creation]; rfl
      | _ => rfl
  | case4 e notParen notSelected notCall =>
      have names := @namesVariable_respan g search e
      cases e with
      | paren => exact absurd rfl (notParen _ _ _)
      | call => exact absurd rfl (notCall _ _ _ _ _)
      | creation => rw [Expr.relabel_creation] at names ⊢; exact names
      | _ => exact names

theorem event?_respan (n : Node Site) :
    (search.respan g).event? (n.relabel (Site.respan g)) =
      (search.event? n).map (DefinitionEvent.respan g) := by
  cases n with
  | varDecl decl =>
      rw [Node.relabel_varDecl, VarDecl.relabel_eq]
      simp only [event?]
      split
      · next named =>
          rw [if_pos (show decl.symbol = some search.key from named), Option.map_map,
            Option.map_map]
          rfl
      · next other => rw [if_neg (show ¬ decl.symbol = some search.key from other)]; rfl
  | expr e =>
      cases e with
      | assign label op target value type =>
          simp only [Node.relabel_expr, Expr.relabel_assign, event?, namesVariable_respan]
          split <;> try rfl
          split <;> rfl
      | call label callee args symbol type =>
          have rooted := @isRooted_respan g search (.call label callee args symbol type)
          simp only [Node.relabel_expr, Expr.relabel_call] at rooted ⊢
          simp only [event?, rooted]
          split <;> rfl
      | creation => rw [Node.relabel_expr, Expr.relabel_creation]; rfl
      | _ => rfl
  | _ => rfl

theorem leave_respan (n : Node Site) (scan : DefinitionScan) :
    (search.respan g).leave false (n.relabel (Site.respan g)) (scan.respan g) =
      (search.leave false n scan).respan g := by
  have reached : (scan.respan g).reached = scan.reached := rfl
  unfold leave
  rw [event?_respan, reached]
  split
  · rfl
  · cases search.event? n with
    | none => rfl
    | some event =>
        exact congrArg (DefinitionScan.mk scan.reached) (Definitions.apply_respan _ _)

theorem step_respan (scan : DefinitionScan) (s : WalkStep) :
    (search.respan g).step (scan.respan g) (s.respan g) = (search.step scan s).respan g := by
  cases s with
  | enter n =>
      cases n with
      | expr e =>
          simp only [WalkStep.respan, Node.relabel_expr, step, Expr.label_relabel]
          split
          · next same => rw [if_pos (show e.label.number = search.use from same)]; rfl
          · next other => rw [if_neg (show ¬ e.label.number = search.use from other)]
      | _ => rfl
  | leave n => exact leave_respan n scan

/-- With other spans a search finds the same definitions. -/
theorem run_respan (method : MethodDecl Site) :
    (search.respan g).run (method.relabel (Site.respan g)) =
      (search.run method).map (Definitions.respan g) := by
  have folded (steps : List WalkStep) : ∀ scan : DefinitionScan,
      (steps.map (WalkStep.respan g)).foldl (search.respan g).step (scan.respan g) =
        (steps.foldl search.step scan).respan g := by
    induction steps with
    | nil => exact fun _ => rfl
    | cons s steps ih =>
        intro scan
        rw [List.map_cons, List.foldl_cons, List.foldl_cons, step_respan, ih]
  have body : (method.relabel (Site.respan g)).body =
      method.body.map (Block.relabel (Site.respan g)) :=
    congrArg MethodDecl.body (MethodDecl.relabel_eq _ method)
  unfold run
  rw [body]
  cases method.body with
  | none => rfl
  | some b =>
      have scanned : (search.respan g).scanTree false (b.relabel (Site.respan g)).tree
          ⟨false, .empty⟩ = (search.scanTree false b.tree ⟨false, .empty⟩).respan g := by
        have here := @scanTree_eq_foldl (search.respan g) (.block (b.relabel (Site.respan g)))
          ⟨false, .empty⟩
        have there := @scanTree_eq_foldl search (.block b) ⟨false, .empty⟩
        rw [← Node.relabel_block, Node.walk_respan] at here
        exact here.trans ((folded _ ⟨false, .empty⟩).trans (congrArg _ there.symm))
      simp only [Option.map_some, scanned]
      generalize search.scanTree false b.tree ⟨false, .empty⟩ = scan
      cases reached : scan.reached <;> simp [DefinitionScan.respan, reached]

end DefinitionSearch

namespace LoadedUnit

variable (loaded : LoadedUnit) (catalog : Catalog) (method : MethodDecl Site) (key : String)
  (use : Expr Site)

theorem reachingDefinitions_respan :
    (loaded.respan g).reachingDefinitions catalog (method.relabel (Site.respan g)) key
        (use.relabel (Site.respan g)) =
      (loaded.reachingDefinitions catalog method key use).map (Definitions.respan g) := by
  rw [reachingDefinitions, Expr.label_relabel]
  exact @DefinitionSearch.run_respan g ⟨loaded, catalog, key, use.label.number, false⟩ method

theorem capturedDefinitions_respan :
    (loaded.respan g).capturedDefinitions catalog (method.relabel (Site.respan g)) key
        (use.relabel (Site.respan g)) =
      (loaded.capturedDefinitions catalog method key use).map (Definitions.respan g) := by
  rw [capturedDefinitions, Expr.label_relabel]
  exact @DefinitionSearch.run_respan g ⟨loaded, catalog, key, use.label.number, true⟩ method

end LoadedUnit

/-- The witness with another span. -/
def Witness.respan (g : Span → Span) (witness : Witness) : Witness :=
  { witness with span := g witness.span }

theorem TraceM.map_withUse {α β : Type} (f : α → β) (use : Nat) (inner : TraceM α) :
    f <$> withUse use inner = withUse use (f <$> inner) := by
  simp [withUse]

theorem TraceM.map_withField {α β : Type} (f : α → β) (field : SymbolId) (inner : TraceM α) :
    f <$> withField field inner = withField field (f <$> inner) := by
  simp [withField]

/-- The verdict with another span. -/
def Verdict.respan (g : Span → Span) (verdict : Verdict) : Verdict :=
  { verdict with witness := verdict.witness.map (Witness.respan g) }

theorem Verdict.join_respan (a b : Verdict) :
    (a.respan g).join (b.respan g) = (a.join b).respan g := by
  unfold join
  split
  · next less => rw [if_pos (show a.constancy.rank < b.constancy.rank from less)]
  · next more => rw [if_neg (show ¬ a.constancy.rank < b.constancy.rank from more)]

@[simp] theorem Expr.describe_relabel {α β : Type} {f : α → β} (e : Expr α) :
    (e.relabel f).describe = e.describe := by
  induction e using Expr.describe.induct with
  | case3 label callee args symbol type ih =>
      rw [relabel_call]
      exact ih
  | case4 label args body symbol type =>
      rw [relabel_creation]
      rfl
  | case5 label target position type ih => exact ih
  | case6 label inner type ih => exact ih
  | case7 label operand type ih => exact ih
  | case8 e noIdent noSelect noCall noCreation noIndex noParen noCast =>
      cases e with
      | creation label args body symbol type =>
          cases type with
          | none => rw [relabel_creation]; rfl
          | some type => exact absurd rfl (noCreation _ _ _ _ _)
      | call => exact absurd rfl (noCall _ _ _ _ _)
      | index => exact absurd rfl (noIndex _ _ _ _)
      | paren => exact absurd rfl (noParen _ _ _)
      | cast => exact absurd rfl (noCast _ _ _)
      | _ => rfl
  | _ => rfl

theorem Expr.blame_respan (e : Expr Site) (name : String) (origin : WitnessOrigin) :
    (e.relabel (Site.respan g)).blame name origin = (e.blame name origin).respan g := by
  unfold blame
  rw [label_relabel]
  rfl

theorem Expr.blame_describe_respan (e : Expr Site) (origin : WitnessOrigin) :
    (e.relabel (Site.respan g)).blame (e.relabel (Site.respan g)).describe origin =
      (e.blame e.describe origin).respan g := by
  rw [describe_relabel, blame_respan]

namespace Tracer

variable {tracer : Tracer}

/-- The tracer of the unit with other spans. -/
def respan (g : Span → Span) (tracer : Tracer) : Tracer :=
  { tracer with loaded := tracer.loaded.respan g }

theorem callEffect?_respan (call callee : Expr Site) :
    (tracer.respan g).callEffect? (call.relabel (Site.respan g)) (callee.relabel (Site.respan g)) =
      tracer.callEffect? call callee := by
  unfold callEffect? respan
  rw [Expr.name?_relabel, LoadedUnit.callCandidates_respan]
  rfl

theorem constructs_respan (creation : Expr Site) (body : Option (ClassDecl Site)) :
    (tracer.respan g).constructs (creation.relabel (Site.respan g))
        (body.map (ClassDecl.relabel (Site.respan g))) = tracer.constructs creation body := by
  unfold constructs respan
  rw [Option.isNone_map, LoadedUnit.typeOf_respan]
  rfl

section Judge

variable {onSymbol other : OnSymbol}

/-- A use of a symbol is handed on, and blamed where no symbol is bound to it. -/
theorem judgeUse_respan
    (onUses : ∀ e s, other (e.relabel (Site.respan g)) s = Verdict.respan g <$> onSymbol e s)
    (e : Expr Site) (name : String) :
    (match (tracer.respan g).loaded.symbolOf (e.relabel (Site.respan g)) with
      | some symbol => other (e.relabel (Site.respan g)) symbol
      | none => return (e.relabel (Site.respan g)).blame name .unresolved : TraceM Verdict) =
    Verdict.respan g <$> (match tracer.loaded.symbolOf e with
      | some symbol => onSymbol e symbol
      | none => return e.blame name .unresolved : TraceM Verdict) := by
  have bound : (tracer.respan g).loaded.symbolOf (e.relabel (Site.respan g)) =
      tracer.loaded.symbolOf e := LoadedUnit.symbolOf_respan e
  rw [bound]
  cases tracer.loaded.symbolOf e with
  | none => exact congrArg pure (Expr.blame_respan e name .unresolved)
  | some symbol => exact onUses e symbol

mutual

/-- With other spans an expression is judged as before. -/
theorem judge_respan
    (onUses : ∀ e s, other (e.relabel (Site.respan g)) s = Verdict.respan g <$> onSymbol e s)
    (e : Expr Site) : (tracer.respan g).judge other (e.relabel (Site.respan g)) =
      Verdict.respan g <$> tracer.judge onSymbol e := by
  cases e with
  | literal => rfl
  | paren _ inner => exact judge_respan onUses inner
  | cast _ operand => exact judge_respan onUses operand
  | unary _ _ operand => exact judge_respan onUses operand
  | assign _ _ _ value => exact judge_respan onUses value
  | binary _ _ lhs rhs =>
      simp [judge, judge_respan onUses lhs, judge_respan onUses rhs, Verdict.join_respan]
  | conditional _ _ whenTrue whenFalse =>
      simp [judge, judge_respan onUses whenTrue, judge_respan onUses whenFalse,
        Verdict.join_respan]
  | ident label name symbol type =>
      exact judgeUse_respan onUses (.ident label name symbol type) name
  | select label target name symbol type =>
      exact judgeUse_respan onUses (.select label target name symbol type) name
  | call label callee args symbol type =>
      have effect := @callEffect?_respan g tracer (.call label callee args symbol type) callee
      have blame := @Expr.blame_describe_respan g (.call label callee args symbol type) .call
      rw [Expr.relabel_call] at effect blame ⊢
      simp only [judge, effect]
      cases tracer.callEffect? (.call label callee args symbol type) callee with
      | none => exact congrArg pure blame
      | some effect =>
          cases effect with
          | safe => rfl
          | propagate | mutate =>
              simp [judgeReceiver_respan onUses callee, judgeAll_respan onUses args]
  | creation label args body symbol type =>
      have constructs := @constructs_respan g tracer (.creation label args body symbol type) body
      have blame := @Expr.blame_describe_respan g (.creation label args body symbol type) .call
      rw [Expr.relabel_creation] at constructs blame ⊢
      simp only [judge, constructs]
      split
      · exact judgeAll_respan onUses args .constant
      · exact congrArg pure blame
  | index label target position type =>
      exact congrArg pure (Expr.blame_describe_respan (.index label target position type) _)

theorem judgeReceiver_respan
    (onUses : ∀ e s, other (e.relabel (Site.respan g)) s = Verdict.respan g <$> onSymbol e s)
    (e : Expr Site) : (tracer.respan g).judgeReceiver other (e.relabel (Site.respan g)) =
      Verdict.respan g <$> tracer.judgeReceiver onSymbol e := by
  cases e with
  | select _ target => exact judge_respan onUses target
  | call => rw [Expr.relabel_call]; rfl
  | creation => rw [Expr.relabel_creation]; rfl
  | _ => rfl

theorem judgeAll_respan
    (onUses : ∀ e s, other (e.relabel (Site.respan g)) s = Verdict.respan g <$> onSymbol e s)
    (es : List (Expr Site)) (verdict : Verdict) :
    (tracer.respan g).judgeAll other (verdict.respan g) (es.map (Expr.relabel (Site.respan g))) =
      Verdict.respan g <$> tracer.judgeAll onSymbol verdict es := by
  cases es with
  | nil => rfl
  | cons e es =>
      simp [judgeAll, judge_respan onUses e, judgeAll_respan onUses es, Verdict.join_respan]

end

end Judge

/-- The context with other spans. -/
def respanContext (g : Span → Span) (context : TraceContext) : TraceContext :=
  context.map (MethodDecl.relabel (Site.respan g))

theorem capturedFrom?_respan (symbol : SymbolId) (context : TraceContext) :
    (tracer.respan g).capturedFrom? symbol (respanContext g context) =
      (tracer.capturedFrom? symbol context).map (MethodDecl.relabel (Site.respan g)) := by
  have named (method : MethodDecl Site) :
      (method.relabel (Site.respan g)).symbol = method.symbol := by
    rw [MethodDecl.relabel_eq]
  exact @capturedFrom?_map tracer (tracer.respan g) _ rfl named (Declarations.method?_respan _)
    symbol context

theorem definitionsOf_respan (context : TraceContext) (use : Expr Site) (symbol : SymbolId) :
    (tracer.respan g).definitionsOf (respanContext g context) (use.relabel (Site.respan g)) symbol =
      ((tracer.definitionsOf context use symbol).1.map (Definitions.respan g),
        respanContext g (tracer.definitionsOf context use symbol).2) := by
  exact definitionsOf_map (fun _ => rfl) (capturedFrom?_respan symbol context)
    (fun method _ => LoadedUnit.reachingDefinitions_respan _ _ _ _ _)
    (fun outer _ => LoadedUnit.capturedDefinitions_respan _ _ _ _ _)

theorem judgeUpdates_respan {judgeIn other : Expr Site → TraceM Verdict}
    (judged : ∀ e, other (e.relabel (Site.respan g)) = Verdict.respan g <$> judgeIn e)
    (es : List (Expr Site)) : ∀ verdict : Verdict,
      judgeUpdates other (verdict.respan g) (es.map (Expr.relabel (Site.respan g))) =
        Verdict.respan g <$> judgeUpdates judgeIn verdict es := by
  induction es with
  | nil => exact fun _ => rfl
  | cons e es ih =>
      intro verdict
      simp [judgeUpdates, judged, ih, Verdict.join_respan]

/-- A step with other spans. -/
def StepRespans (g : Span → Span) : Option TraceStep → Option TraceStep → Prop
  | none, none => True
  | some step, some other => ∀ context e,
      other (respanContext g context) (e.relabel (Site.respan g)) =
        Verdict.respan g <$> step context e
  | _, _ => False

variable {deeper other : Option TraceStep}

theorem traceLocal_respan (steps : StepRespans g deeper other) (context : TraceContext)
    (use : Expr Site) (symbol : SymbolId) :
    (tracer.respan g).traceLocal other (respanContext g context) (use.relabel (Site.respan g))
        symbol = Verdict.respan g <$> tracer.traceLocal deeper context use symbol := by
  have blamed := @Expr.blame_respan g use (tracer.loaded.model.symbol symbol).name .localVariable
  have number : (use.relabel (Site.respan g)).label.number = use.label.number := by
    rw [Expr.label_relabel]
    rfl
  have model : (tracer.respan g).loaded.model = tracer.loaded.model := rfl
  unfold traceLocal
  match deeper, other, steps with
  | none, none, _ =>
      simp only [model, blamed]
      rfl
  | some step, some other, steps =>
      simp only [number, model, blamed, definitionsOf_respan]
      generalize tracer.definitionsOf context use symbol = found
      obtain ⟨definitions, inner⟩ := found
      -- Uses are active by their numbers, so both computations ask the same of the active traces.
      simp only [map_bind]
      congr 1
      funext active
      split
      · rfl
      rw [TraceM.map_withUse]
      congr 1
      match definitions with
      | none => rfl
      | some ⟨none, updates⟩ => rfl
      | some ⟨some latest, updates⟩ =>
          have stepped : ∀ e, other (respanContext g inner) (e.relabel (Site.respan g)) =
              Verdict.respan g <$> step inner e := steps inner
          simp [Definitions.respan, stepped, judgeUpdates_respan stepped]

theorem traceField_respan (steps : StepRespans g deeper other) (use : Expr Site)
    (symbol : SymbolId) :
    (tracer.respan g).traceField other (use.relabel (Site.respan g)) symbol =
      Verdict.respan g <$> tracer.traceField deeper use symbol := by
  have blamed := @Expr.blame_respan g use (tracer.loaded.model.symbol symbol).name .field
  have model : (tracer.respan g).loaded.model = tracer.loaded.model := rfl
  have declared (key : String) :
      ((tracer.respan g).loaded.declarations.field? key).bind (·.init) =
        ((tracer.loaded.declarations.field? key).bind (·.init)).map
          (Expr.relabel (Site.respan g)) :=
    Declarations.init_field?_respan _ key
  unfold traceField
  simp only [model, blamed, declared]
  split
  · rfl
  split
  · rfl
  match deeper, other, steps,
    (tracer.loaded.declarations.field? (tracer.loaded.model.symbol symbol).key).bind (·.init) with
  | none, none, _, _ => rfl
  | some step, some other, _, none => rfl
  | some step, some other, steps, some init =>
      simp only [map_bind, Option.map_some]
      congr 1
      funext active
      split
      · rfl
      have stepped : other none (init.relabel (Site.respan g)) =
          Verdict.respan g <$> step none init := steps none init
      -- The verdict on the initializer is looked at for its constancy alone, or taken as it is.
      rw [stepped, ← TraceM.map_withField]
      simp only [map_bind, bind_map_left]
      congr 1
      funext verdict
      exact congrArg pure (apply_ite (Verdict.respan g) _ _ _).symm

theorem traceSymbol_respan (steps : StepRespans g deeper other) (context : TraceContext)
    (use : Expr Site) (symbol : SymbolId) :
    (tracer.respan g).traceSymbol other (respanContext g context) (use.relabel (Site.respan g))
        symbol = Verdict.respan g <$> tracer.traceSymbol deeper context use symbol := by
  have model : (tracer.respan g).loaded.model = tracer.loaded.model := rfl
  simp only [traceSymbol, model]
  split
  · rfl
  split
  · exact congrArg pure (Expr.blame_respan _ _ _)
  split
  · exact traceLocal_respan steps context use symbol
  split
  · exact traceField_respan steps use symbol
  · exact congrArg pure (Expr.blame_respan _ _ _)

/-- With other spans an expression is traced as before. -/
theorem traceExpr_respan (depth : Nat) : ∀ (context : TraceContext) (e : Expr Site),
    (tracer.respan g).traceExpr depth (respanContext g context) (e.relabel (Site.respan g)) =
      Verdict.respan g <$> tracer.traceExpr depth context e := by
  induction depth with
  | zero =>
      intro context e
      have steps : StepRespans g none none := trivial
      exact judge_respan (traceSymbol_respan steps context) e
  | succ depth ih =>
      intro context e
      have steps : StepRespans g (some (tracer.traceExpr depth))
        (some ((tracer.respan g).traceExpr depth)) := ih
      exact judge_respan (traceSymbol_respan steps context) e

/-- With other spans the verdict on an expression is the same, with another span. -/
theorem classify_respan (context : TraceContext) (e : Expr Site) :
    (tracer.respan g).classify (respanContext g context) (e.relabel (Site.respan g)) =
      (tracer.classify context e).respan g := by
  rw [classify, traceExpr_respan]
  rfl

end Tracer

end BugPatterns
