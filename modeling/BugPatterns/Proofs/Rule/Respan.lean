import BugPatterns.Proofs.Constancy.Respan
import BugPatterns.Proofs.Engine.Selection

/-!
# Findings with other spans

No rule looks at spans. With other spans a rule gives the same answer to the same node, so a pass
has the same findings in the same order, each with its other span (`Registry.diagnostics_respan`).
-/

namespace BugPatterns

variable {g : Span → Span}

/-- The scope with other spans. -/
def Scope.respan (g : Span → Span) : Scope → Scope
  | .classDecl decl => .classDecl (decl.relabel (Site.respan g))
  | .method decl => .method (decl.relabel (Site.respan g))

theorem Scope.ofNode?_respan (n : Node Site) :
    ofNode? (n.relabel (Site.respan g)) = (ofNode? n).map (respan g) := by
  cases n <;> rfl

theorem Scope.method?_respan (scope : Scope) :
    (scope.respan g).method? = scope.method?.map (MethodDecl.relabel (Site.respan g)) := by
  cases scope <;> rfl

/-- Nodes with other spans lie under the scopes with other spans. -/
theorem Node.underScopes_respan (n : Node Site) : ∀ scopes : List Scope,
    (n.relabel (Site.respan g)).tree.underScopes Scope.ofNode? (scopes.map (Scope.respan g)) =
      (n.tree.underScopes Scope.ofNode? scopes).map fun (scopes, m) =>
        (scopes.map (Scope.respan g), m.relabel (Site.respan g)) := by
  induction n using Node.induct with
  | node n ih =>
      intro scopes
      have opened : (Scope.ofNode? (n.relabel (Site.respan g))).toList ++
          scopes.map (Scope.respan g) =
            ((Scope.ofNode? n).toList ++ scopes).map (Scope.respan g) := by
        rw [Scope.ofNode?_respan, Option.toList_map, List.map_append]
      rw [underScopes_tree, underScopes_tree, children_relabel, List.flatMap_map, opened,
        List.map_cons, List.map_flatMap]
      exact congrArg _ (List.flatMap_congr fun c child => ih c child _)

/-- The surroundings with other spans. -/
def Surroundings.respan (g : Span → Span) (here : Surroundings) : Surroundings :=
  { here with loaded := here.loaded.respan g, scopes := here.scopes.map (Scope.respan g) }

namespace Surroundings

variable (here : Surroundings)

theorem enclosingMethod_respan : (here.respan g).enclosingMethod =
    here.enclosingMethod.map (MethodDecl.relabel (Site.respan g)) := by
  unfold enclosingMethod respan
  cases here.scopes with
  | nil => rfl
  | cons scope scopes => exact scope.method?_respan

theorem enclosingMethods_respan : (here.respan g).enclosingMethods =
    here.enclosingMethods.map (MethodDecl.relabel (Site.respan g)) := by
  simp only [enclosingMethods, respan, List.filterMap_map, List.map_filterMap, Function.comp_def,
    Scope.method?_respan]

theorem classify_respan (e : Expr Site) :
    (here.respan g).classify (e.relabel (Site.respan g)) = (here.classify e).respan g := by
  rw [classify, enclosingMethod_respan]
  exact @Tracer.classify_respan g ⟨here.loaded, here.catalog, here.maxDepth⟩ here.enclosingMethod e

end Surroundings

/-- The report with another span. -/
def Report.respan (g : Span → Span) (report : Report) : Report :=
  { report with span := g report.span }

theorem Report.about_respan (e : Expr Site) (message : String) :
    about (.expr (e.relabel (Site.respan g))) message =
      (about (.expr e) message).respan g := by
  have span : (Node.expr (e.relabel (Site.respan g))).span = g (Node.expr e).span :=
    congrArg Site.span e.label_relabel
  have kind : (Node.expr (e.relabel (Site.respan g))).kind = (Node.expr e).kind := e.kind_relabel
  rw [about, span, kind]
  rfl

/-- The answer with other spans. -/
def Answer.respan (g : Span → Span) (answer : Answer) : Answer :=
  { answer with reports := answer.reports.map (Report.respan g) }

/-- The expressions that lie in no type declaration below a node are relabelled with it. -/
theorem Node.ownExprs_relabel {α β : Type} {f : α → β} (n : Node α) :
    (n.relabel f).ownExprs = n.ownExprs.map (Expr.relabel f) := by
  have within := n.ownNodes_relabel (f := f)
  unfold ownNodes at within
  rw [ownExprs, within, List.filterMap_map, ownExprs, List.map_filterMap]
  congr 1
  funext m
  cases m <;> rfl

/-- Reports on expressions below a node are the same with other spans if each of them is. -/
theorem Node.filterMap_ownExprs_respan {found other : Expr Site → Option Report}
    (each : ∀ e, other (e.relabel (Site.respan g)) = (found e).map (Report.respan g))
    (n : Node Site) : (n.relabel (Site.respan g)).ownExprs.filterMap other =
      (n.ownExprs.filterMap found).map (Report.respan g) := by
  rw [ownExprs_relabel, List.filterMap_map, List.map_filterMap]
  exact List.filterMap_congr fun e _ => each e

namespace Rule

variable (here : Surroundings)

theorem isEqualsMethod_respan (model : Model) (method : MethodDecl Site) :
    isEqualsMethod model (method.relabel (Site.respan g)) = isEqualsMethod model method := by
  rw [isEqualsMethod, MethodDecl.relabel_eq, isEqualsMethod]
  match method.params with
  | [] => rfl
  | [param] => simp only [List.map_cons, List.map_nil, VarDecl.relabel_eq]
  | _ :: _ :: _ => rfl

theorem confusesIdentity_respan (lhs rhs : Expr Site) :
    confusesIdentity (here.respan g) (lhs.relabel (Site.respan g))
        (rhs.relabel (Site.respan g)) = confusesIdentity here lhs rhs := by
  have model : (here.respan g).model = here.model := rfl
  have left : (here.respan g).loaded.typeOf (lhs.relabel (Site.respan g)) =
    here.loaded.typeOf lhs := LoadedUnit.typeOf_respan lhs
  have right : (here.respan g).loaded.typeOf (rhs.relabel (Site.respan g)) =
    here.loaded.typeOf rhs := LoadedUnit.typeOf_respan rhs
  have around : ((here.respan g).enclosingMethods.any (isEqualsMethod here.model)) =
      here.enclosingMethods.any (isEqualsMethod here.model) := by
    rw [Surroundings.enclosingMethods_respan, List.any_map]
    congr 1
    funext method
    exact isEqualsMethod_respan here.model method
  unfold confusesIdentity
  rw [model, left, right, around, Expr.isNullLiteral_relabel, Expr.isNullLiteral_relabel]

theorem sinkOfCall?_respan (call : Expr Site) :
    sinkOfCall? (here.respan g) (call.relabel (Site.respan g)) =
      (sinkOfCall? here call).map fun (sink, query) =>
        (sink, query.relabel (Site.respan g)) := by
  cases call with
  | call label callee args symbol type =>
      rw [Expr.relabel_call]
      cases callee with
      | select _ target name =>
          cases args with
          | nil => rfl
          | cons query args =>
              have typed : (here.respan g).loaded.typeOf (target.relabel (Site.respan g)) =
                here.loaded.typeOf target := LoadedUnit.typeOf_respan target
              have catalog : (here.respan g).catalog = here.catalog := rfl
              have model : (here.respan g).model = here.model := rfl
              simp only [Expr.relabel_select, List.map_cons, sinkOfCall?, typed, catalog, model,
                Option.bind_eq_bind]
              cases here.loaded.typeOf target with
              | none => rfl
              | some receiver =>
                  simp only [Option.bind_some]
                  cases here.catalog.sink? here.model receiver name <;> rfl
      | call => rw [Expr.relabel_call]; rfl
      | creation => rw [Expr.relabel_creation]; rfl
      | _ => rfl
  | creation => rw [Expr.relabel_creation]; rfl
  | _ => rfl

theorem injectionMessage_respan (sink : Sink) (verdict : Verdict) :
    injectionMessage sink (verdict.respan g) = injectionMessage sink verdict := by
  unfold injectionMessage Verdict.respan
  cases sink.remediation <;> cases verdict.witness <;> rfl

section Loaded

variable (loaded : LoadedUnit)

theorem assignedField?_respan (target : Expr Site) :
    assignedField? (loaded.respan g) (target.relabel (Site.respan g)) =
      assignedField? loaded target := by
  have owned : isOwnedByType (loaded.respan g) (target.relabel (Site.respan g)) =
      isOwnedByType loaded target := by
    rw [isOwnedByType, LoadedUnit.symbolOf_respan]
    rfl
  unfold assignedField?
  rw [owned]
  cases target with
  | select _ qualifier => simp only [Expr.relabel_select, Expr.isThis_relabel]
  | call => rw [Expr.relabel_call]
  | creation => rw [Expr.relabel_creation]
  | _ => rfl

theorem nullification?_respan (e : Expr Site) :
    nullification? (loaded.respan g) (e.relabel (Site.respan g)) =
      (nullification? loaded e).map (Report.respan g) := by
  cases e with
  | assign label op target value type =>
      have about := fun message =>
        (@Report.about_respan g (.assign label op target value type) message)
      rw [Expr.relabel_assign] at about ⊢
      cases op with
      | assign =>
          simp only [nullification?, Expr.isNullLiteral_relabel, assignedField?_respan, about]
          split
          · rw [Option.map_map]
            rfl
          · rfl
      | _ => rfl
  | call => rw [Expr.relabel_call]; rfl
  | creation => rw [Expr.relabel_creation]; rfl
  | _ => rfl

theorem innerClass?_respan (decl : ClassDecl Site) :
    innerClass? (loaded.respan g) (decl.relabel (Site.respan g)) = innerClass? loaded decl := by
  rw [innerClass?, LoadedUnit.classSymbol_respan]
  rfl

theorem ambiguousCall?_respan (inner : InnerClass) (e : Expr Site) :
    ambiguousCall? (loaded.respan g) inner (e.relabel (Site.respan g)) =
      (ambiguousCall? loaded inner e).map (Report.respan g) := by
  cases e with
  | call label callee args symbol type =>
      have about := fun message =>
        (@Report.about_respan g (.call label callee args symbol type) message)
      have bound := @LoadedUnit.symbolOf_respan g loaded (.call label callee args symbol type)
      rw [Expr.relabel_call] at about bound ⊢
      cases callee with
      | ident _ name =>
          simp only [Expr.relabel_ident] at about bound ⊢
          simp only [ambiguousCall?, bound, about, LoadedUnit.model_respan]
          split <;> rfl
      | call => rw [Expr.relabel_call]; rfl
      | creation => rw [Expr.relabel_creation]; rfl
      | _ => rfl
  | creation => rw [Expr.relabel_creation]; rfl
  | _ => rfl

end Loaded

section Visit

variable (node : Node Site)

theorem objectEquality_respan :
    objectEquality.visit (here.respan g) (node.relabel (Site.respan g)) =
      (objectEquality.visit here node).respan g := by
  cases node with
  | expr e =>
      cases e with
      | binary label op lhs rhs type =>
          have about := fun message =>
            (@Report.about_respan g (.binary label op lhs rhs type) message)
          simp only [Expr.relabel_binary] at about
          simp only [objectEquality, Node.relabel_expr, Expr.relabel_binary,
            confusesIdentity_respan, about]
          split <;> rfl
      | call => rw [Node.relabel_expr, Expr.relabel_call]; rfl
      | creation => rw [Node.relabel_expr, Expr.relabel_creation]; rfl
      | _ => rfl
  | _ => rfl

theorem sqlInjection_respan :
    sqlInjection.visit (here.respan g) (node.relabel (Site.respan g)) =
      (sqlInjection.visit here node).respan g := by
  cases node with
  | expr call =>
      simp only [sqlInjection, Node.relabel_expr, sinkOfCall?_respan]
      cases sinkOfCall? here call with
      | none => rfl
      | some pair =>
          obtain ⟨sink, query⟩ := pair
          have blamed : ((here.classify query).respan g).isUnsafe =
            (here.classify query).isUnsafe := rfl
          simp only [Option.map_some, Surroundings.classify_respan, injectionMessage_respan,
            blamed, Report.about_respan]
          split <;> rfl
  | _ => rfl

theorem finalizerNulling_respan :
    finalizerNulling.visit (here.respan g) (node.relabel (Site.respan g)) =
      (finalizerNulling.visit here node).respan g := by
  cases node with
  | method method =>
      have name : (method.relabel (Site.respan g)).name = method.name := by
        rw [MethodDecl.relabel_eq]
      have params : (method.relabel (Site.respan g)).params.isEmpty = method.params.isEmpty := by
        rw [MethodDecl.relabel_eq, List.isEmpty_map]
      have nulled := Node.filterMap_ownExprs_respan (@nullification?_respan g here.loaded)
        (.method method)
      simp only [finalizerNulling, Node.relabel_method, name, params] at nulled ⊢
      split
      · exact congrArg Answer.ofReports nulled
      · rfl
  | _ => rfl

theorem innerClassCalls_respan :
    innerClassCalls.visit (here.respan g) (node.relabel (Site.respan g)) =
      (innerClassCalls.visit here node).respan g := by
  cases node with
  | classDecl decl =>
      have inner : innerClass? (here.respan g).loaded (decl.relabel (Site.respan g)) =
        innerClass? here.loaded decl := innerClass?_respan here.loaded decl
      simp only [innerClassCalls, Node.relabel_classDecl, inner]
      cases innerClass? here.loaded decl with
      | none => rfl
      | some inner =>
          exact congrArg Answer.ofReports
            (Node.filterMap_ownExprs_respan (ambiguousCall?_respan here.loaded inner)
              (.classDecl decl))
  | _ => rfl

end Visit

/-- With other spans a rule gives the same answer to the same node. -/
theorem visit_respan : ∀ check ∈ builtinChecks, ∀ here node,
    check.visit (here.respan g) (node.relabel (Site.respan g)) =
      (check.visit here node).respan g := by
  rw [forall_builtin]
  exact ⟨objectEquality_respan, sqlInjection_respan, finalizerNulling_respan,
    innerClassCalls_respan⟩

end Rule

/-- The finding with another span. -/
def Diagnostic.respan (g : Span → Span) (found : Diagnostic) : Diagnostic :=
  { found with span := g found.span }

namespace Registry

/-- The showing with other spans. -/
def Showing.respan (g : Span → Span) (showing : Showing) : Showing where
  check := showing.check
  here := showing.here.respan g
  node := showing.node.relabel (Site.respan g)

theorem Showing.diagnostics_respan (showing : Showing) (answer : Answer) :
    (showing.respan g).diagnostics (answer.respan g) =
      (showing.diagnostics answer).map (Diagnostic.respan g) := by
  have file : (showing.respan g).here.loaded.file = showing.here.loaded.file :=
    LoadedUnit.file_respan
  simp only [diagnostics, file, Answer.respan, List.map_map]
  rfl

variable (registry : Registry) (loaded : LoadedUnit) (catalog : Catalog) (depth : Nat)

/-- With other spans the same nodes are shown to the same checks. -/
theorem showings_respan : registry.showings (loaded.respan g) catalog depth =
    (registry.showings loaded catalog depth).map (Showing.respan g) := by
  have placed : (loaded.respan g).unit.tree.underScopes Scope.ofNode? [] =
      (loaded.unit.tree.underScopes Scope.ofNode? []).map fun (scopes, n) =>
        (scopes.map (Scope.respan g), n.relabel (Site.respan g)) :=
    Node.underScopes_respan (.unit loaded.unit) []
  unfold showings
  rw [placed, List.flatMap_map, List.map_flatMap]
  refine List.flatMap_congr ?_
  rintro ⟨scopes, n⟩ -
  simp only [Node.kind_relabel, List.map_map]
  rfl

/-- With other spans a pass has the same findings, each with the other span. -/
theorem diagnostics_respan {registry : Registry} (indexed : registry.Indexed)
    (builtin : ∀ check ∈ registry.checks, check ∈ builtinChecks) :
    (registry.run (loaded.respan g) catalog depth).diagnostics =
      (registry.run loaded catalog depth).diagnostics.map (Diagnostic.respan g) := by
  rw [diagnostics_run, diagnostics_run, showings_respan, List.flatMap_map, List.map_flatMap]
  refine List.flatMap_congr fun showing shown => ?_
  have member := builtin _ (check_mem_of_showing loaded catalog depth indexed shown)
  have answer : (showing.respan g).answer = showing.answer.respan g :=
    Rule.visit_respan _ member showing.here showing.node
  rw [answer, Showing.diagnostics_respan]

end Registry

end BugPatterns
