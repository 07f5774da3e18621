import BugPatterns.Catalog.Builtin
import BugPatterns.Proofs.Constancy.CastTrace
import BugPatterns.Proofs.Constancy.Forward
import BugPatterns.Proofs.Constancy.UnwrappedTrace

/-!
# Casts are not transparent

Casts can be added to the expressions of a unit, with the type of what they are applied to. A call
that adds to a variable is no longer recognized as one if a cast stands on the way to the variable,
so what it adds is lost. Apart from that, casts change nothing: verdicts are no worse under them,
and the same if they hide no call (`Tracer.classify_with_casts`).
-/

namespace BugPatterns

variable {added : Site → Bool} {r : Nat → Nat}

namespace LoadedUnit

variable {loaded : LoadedUnit}

/-- The node is no assignment to a variable that is cast. -/
def assignsOpenly (added : Site → Bool) : Node Site → Bool
  | .expr (.assign _ _ target _ _) => !target.stripParens.isMarkedCast added
  | _ => true

theorem keepsTargets_of_assignsOpenly
    (openly : ∀ n ∈ loaded.nodes, assignsOpenly added n = true) : loaded.KeepsTargets added := by
  intro key label op target value type inUnit names
  have kept : target.stripParens.isMarkedCast added = false := by
    simpa [assignsOpenly] using openly _ inUnit
  let search : DefinitionSearch := ⟨loaded, .builtin, key, 0, false⟩
  have same := search.namesVariable_asParens kept
  have named := (@DefinitionSearch.namesVariable_iff (search.asParens added) _).mpr names
  exact DefinitionSearch.namesVariable_iff.mp (same ▸ named)

/-- The chains of calls that are recognized under the added casts are those of the unit without them
    that no cast interrupts. -/
theorem chain_iff_uncast (casts : loaded.unit.Casts added) (catalog : Catalog) (key : String)
    {e : Expr Site} (inUnit : .expr e ∈ loaded.nodes) :
    Chain loaded catalog key e ↔
      Chain (loaded.uncast added r) catalog key (e.uncast added (Site.renumber r)) ∧
        e.castsRoot added = false := by
  let search : DefinitionSearch := ⟨loaded, catalog, key, 0, false⟩
  have parens : .expr (e.asParens added) ∈ (loaded.asParens added).nodes := by
    rw [nodes_asParens]
    exact List.mem_map_of_mem inUnit
  have recognized := @DefinitionSearch.isRooted_asParens added search e
  have unwrapped := @DefinitionSearch.isRooted_unwrap added r (search.asParens added) casts.wraps _
    parens
  have here := @DefinitionSearch.isRooted_iff search e
  have there := @DefinitionSearch.isRooted_iff ((search.asParens added).unwrap added r)
    (e.uncast added (Site.renumber r))
  refine here.symm.trans ?_
  rw [recognized, ← unwrapped, Bool.and_eq_true, Bool.not_eq_true']
  exact and_congr_left' there

end LoadedUnit

namespace Tracer

variable {tracer : Tracer}

/-- The node is no call that adds to what it reaches through an added cast. -/
def callsOpenly (tracer : Tracer) (added : Site → Bool) : Node Site → Bool
  | .expr e@(.call _ callee _ _ _) =>
      !e.castsRoot added || tracer.callEffect? e callee ≠ some .mutate
  | _ => true

/-- A chain of calls ends in one that adds to what it is made on. -/
theorem callEffect?_of_chain {key : String} {label : Site} {callee : Expr Site}
    {args : List (Expr Site)} {symbol type : Option String}
    (chain : Chain tracer.loaded tracer.catalog key (.call label callee args symbol type)) :
    tracer.callEffect? (.call label callee args symbol type) callee = some .mutate := by
  cases chain with
  | root names => cases names
  | call adds chain => exact adds

theorem keepsCalls_of_callsOpenly
    (openly : ∀ n ∈ tracer.loaded.nodes, tracer.callsOpenly added n = true) :
    tracer.loaded.KeepsCalls tracer.catalog added := by
  intro key label callee args symbol type inUnit chain
  let search : DefinitionSearch := ⟨tracer.loaded, tracer.catalog, key, 0, false⟩
  have recognized := @DefinitionSearch.isRooted_asParens added search
    (.call label callee args symbol type)
  have seen := (@DefinitionSearch.isRooted_iff (search.asParens added) _).mpr chain
  have effect := @callEffect?_asParens added tracer (.call label callee args symbol type) callee
  rw [Expr.asParens_call] at chain effect
  have adds := (@callEffect?_of_chain (tracer.asParens added) _ _ _ _ _ _ chain).symm.trans effect
  have uninterrupted : (Expr.call label callee args symbol type).castsRoot added = false := by
    simpa [callsOpenly, ← adds] using openly _ inUnit
  rw [seen, uninterrupted] at recognized
  exact DefinitionSearch.isRooted_iff.mp recognized

/-- With the casts as parentheses, expressions have the verdicts of the unit without them. -/
theorem classify_uncast (coherent : tracer.loaded.Coherent) (casts : tracer.loaded.unit.Casts added)
    (injective : Function.Injective r) {context : TraceContext} (listed : tracer.InUnit context)
    {e : Expr Site} (inUnit : .expr e ∈ tracer.loaded.nodes) :
    classify ⟨tracer.loaded.uncast added r, tracer.catalog, tracer.maxDepth⟩
        (context.map (MethodDecl.uncast added (Site.renumber r)))
        (e.uncast added (Site.renumber r)) =
      (tracer.asParens added).classify (contextAsParens added context) (e.asParens added) := by
  have listedParens : (tracer.asParens added).InUnit (contextAsParens added context) := by
    intro method around
    obtain ⟨method, present, rfl⟩ := Option.map_eq_some_iff.mp around
    show .method (method.asParens added) ∈ (tracer.loaded.asParens added).nodes
    rw [LoadedUnit.nodes_asParens]
    exact List.mem_map_of_mem (listed method present)
  have inUnitParens : .expr (e.asParens added) ∈ (tracer.asParens added).loaded.nodes := by
    show .expr (e.asParens added) ∈ (tracer.loaded.asParens added).nodes
    rw [LoadedUnit.nodes_asParens]
    exact List.mem_map_of_mem inUnit
  have same := (tracer.asParens added).classify_unwrap coherent.asParens casts.wraps injective
    listedParens inUnitParens
  rw [← same]
  cases context <;> rfl

/-- Casts are not transparent, since they can hide calls that add to a variable. Take a document and
    one that has it with casts added to any of its expressions, except to what is called or assigned
    to. When both are loaded, the nodes of the one are those of the other that are no added casts,
    under the same scopes, with other numbers. A chain of calls is recognized as adding to a
    variable just if it is without the casts and none of them stands on the way to the variable. If
    no assigned variable is cast, then whatever the catalog and the depth no expression has a worse
    verdict under the casts than the one that it was made of, in the same method; and if all calls
    are recognized, it has the same verdict, with the same witness. -/
theorem classify_with_casts {document wrapped : UnitDocument}
    (adds : document.AddsCasts wrapped added) {loaded loadedWrapped : LoadedUnit}
    (made : LoadedUnit.ofDocument document = .ok loaded)
    (madeWrapped : LoadedUnit.ofDocument wrapped = .ok loadedWrapped) :
    ∃ r : Nat → Nat, Function.Injective r ∧
      loaded.scopedNodes =
        (loadedWrapped.scopedNodes.filter fun placed => !placed.2.isMarkedCast added).map
          (uncastPlaced added r) ∧
      (∀ catalog key e, .expr e ∈ loadedWrapped.nodes →
        (Chain loadedWrapped catalog key e ↔
          Chain loaded catalog key (e.uncast added (Site.renumber r)) ∧
            e.castsRoot added = false)) ∧
      (loadedWrapped.KeepsTargets added → ∀ catalog depth context e,
        (∀ method ∈ context, .method method ∈ loadedWrapped.nodes) →
          .expr e ∈ loadedWrapped.nodes →
            ((Tracer.mk loadedWrapped catalog depth).classify context e).constancy.rank ≤
                ((Tracer.mk loaded catalog depth).classify
                  (context.map (MethodDecl.uncast added (Site.renumber r)))
                  (e.uncast added (Site.renumber r))).constancy.rank ∧
              (loadedWrapped.KeepsCalls catalog added →
                (Tracer.mk loadedWrapped catalog depth).classify context e =
                  (Tracer.mk loaded catalog depth).classify
                    (context.map (MethodDecl.uncast added (Site.renumber r)))
                    (e.uncast added (Site.renumber r)))) := by
  have coherent := LoadedUnit.coherent_ofDocument madeWrapped
  obtain ⟨casts, r, injective, rfl⟩ := LoadedUnit.ofDocument_asParens adds made madeWrapped
  refine ⟨r, injective, LoadedUnit.scopedNodes_uncast casts, ?_, ?_⟩
  · intro catalog key e inUnit
    exact LoadedUnit.chain_iff_uncast casts catalog key inUnit
  · intro targets catalog depth context e listed inUnit
    let tracer : Tracer := ⟨loadedWrapped, catalog, depth⟩
    have recognizes : tracer.loaded.Recognizes tracer.catalog added
        (loadedWrapped.KeepsCalls catalog added) := ⟨targets, fun keeps => keeps⟩
    have softens := tracer.classify_asParens recognizes coherent listed e
    have uncast := tracer.classify_uncast coherent casts injective listed inUnit
    rw [← uncast] at softens
    exact ⟨softens.rank, softens.same⟩

end Tracer

namespace Casting

/-- Where casts are added. -/
def castSpan : Span := ⟨9, 1, 9, 9⟩

/-- The casts that are added. -/
def isCast (site : Site) : Bool := site.span = castSpan

/-- The expression is cast to its own type. -/
def inCast (e : Expr Span) : Expr Span := .cast castSpan e e.type

/-- The builder of the method. -/
def builder : Expr Span :=
  .ident .unknown "s" (some "p.Q#m.s") (some "java.lang.StringBuilder")

/-- A builder is made and assigned to itself, the parameter is appended to it, and its text is
    returned; `wrap` is applied to all but what is assigned or appended to. -/
def quoting (wrap : Expr Span → Expr Span) : UnitDocument := .ofBody [
  .varDecl ⟨.unknown, "s", some "p.Q#m.s", some "java.lang.StringBuilder", some
    (wrap (.creation .unknown [wrap (.literal .unknown .string "x" none)] none none
      (some "java.lang.StringBuilder")))⟩,
  .expression .unknown (.assign .unknown .assign builder (wrap (wrap builder)) none),
  .expression .unknown
    (.call .unknown (.select .unknown builder "append" none none) [wrap (.variable 2 "p")] none
      none),
  .ret .unknown (some
    (wrap (.call .unknown (.select .unknown (wrap builder) "toString" none none) [] none none)))]

/-- The casts hide no call, so the text is blamed on the parameter as it is without them. -/
theorem classify_with_casts_quoting : ∃ loaded loadedWrapped r method e,
    LoadedUnit.ofDocument (quoting id) = .ok loaded ∧
      LoadedUnit.ofDocument (quoting inCast) = .ok loadedWrapped ∧
      loadedWrapped.nodes.length = loaded.nodes.length + 7 ∧
      .method method ∈ loadedWrapped.nodes ∧ .expr e ∈ method.bodyNodes ∧
      loadedWrapped.KeepsTargets isCast ∧ loadedWrapped.KeepsCalls .builtin isCast ∧
      (Tracer.mk loaded .builtin 32).classify (some (method.uncast isCast (Site.renumber r)))
          (e.uncast isCast (Site.renumber r)) =
        .blame "p" ⟨2, 1, 2, 2⟩ .parameter := by
  have evaluated : ((LoadedUnit.ofDocument (quoting id)).toOption.bind fun loaded =>
      (LoadedUnit.ofDocument (quoting inCast)).toOption.bind fun loadedWrapped =>
        (loadedWrapped.declarations.method? "p.Q#m").bind fun method =>
          (LoadedUnit.heldExpr? method 23).map fun e =>
            decide (loadedWrapped.nodes.length = loaded.nodes.length + 7 ∧
              (∀ n ∈ loadedWrapped.nodes, LoadedUnit.assignsOpenly isCast n = true) ∧
              (∀ n ∈ loadedWrapped.nodes,
                (Tracer.mk loadedWrapped .builtin 32).callsOpenly isCast n = true) ∧
              (Tracer.mk loadedWrapped .builtin 32).classify (some method) e =
                .blame "p" ⟨2, 1, 2, 2⟩ .parameter)) = some true := by
    decide +kernel
  obtain ⟨loaded, made, evaluated⟩ := exists_ok_of_toOption_bind evaluated
  obtain ⟨loadedWrapped, method, e, madeWrapped, listed, held, checked⟩ :=
    LoadedUnit.exists_of_evaluated evaluated
  obtain ⟨longer, assigns, calls, blamed⟩ := of_decide_eq_true checked
  have adds : (quoting id).AddsCasts (quoting inCast) isCast := {
    casts := by decide +kernel
    tree := rfl
    model := rfl }
  have targets := LoadedUnit.keepsTargets_of_assignsOpenly assigns
  have keeps := (Tracer.mk loadedWrapped .builtin 32).keepsCalls_of_callsOpenly calls
  obtain ⟨r, -, -, -, compared⟩ := Tracer.classify_with_casts adds made madeWrapped
  have same := (compared targets .builtin 32 (some method) e (by simpa using listed)
    (LoadedUnit.mem_nodes_of_bodyNode listed held)).2 keeps
  exact ⟨loaded, loadedWrapped, r, method, e, made, madeWrapped, longer, listed, held, targets,
    keeps, same.symm.trans blamed⟩

/-- A builder is made, the parameter is appended to it, and it is returned; `wrap` is applied to
    what is appended to. -/
def appending (wrap : Expr Span → Expr Span) : UnitDocument := .ofBody [
  .varDecl ⟨.unknown, "s", some "p.Q#m.s", some "java.lang.StringBuilder", some
    (.creation .unknown [.literal .unknown .string "x" none] none none
      (some "java.lang.StringBuilder"))⟩,
  .expression .unknown
    (.call .unknown (.select .unknown (wrap builder) "append" none none) [.variable 2 "p"] none
      none),
  .ret .unknown (some builder)]

/-- Where the builder is cast before the parameter is appended to it, the returned builder is
    constant, although it is blamed on the parameter without the cast. -/
theorem constancy_ne_with_cast : ∃ loaded loadedWrapped r method e,
    (appending id).AddsCasts (appending inCast) isCast ∧
      LoadedUnit.ofDocument (appending id) = .ok loaded ∧
      LoadedUnit.ofDocument (appending inCast) = .ok loadedWrapped ∧ Function.Injective r ∧
      loaded.scopedNodes =
        (loadedWrapped.scopedNodes.filter fun placed => !placed.2.isMarkedCast isCast).map
          (uncastPlaced isCast r) ∧
      .method method ∈ loadedWrapped.nodes ∧ .expr e ∈ method.bodyNodes ∧
      e.isMarkedCast isCast = false ∧
      (Tracer.mk loadedWrapped .builtin 32).classify (some method) e = .constant ∧
      (Tracer.mk loaded .builtin 32).classify (some (method.uncast isCast (Site.renumber r)))
          (e.uncast isCast (Site.renumber r)) = .blame "p" ⟨2, 1, 2, 2⟩ .parameter ∧
      ((Tracer.mk loadedWrapped .builtin 32).classify (some method) e).constancy ≠
        ((Tracer.mk loaded .builtin 32).classify (some (method.uncast isCast (Site.renumber r)))
          (e.uncast isCast (Site.renumber r))).constancy := by
  have evaluated : ((LoadedUnit.ofDocument (appending id)).toOption.bind fun _ =>
      (LoadedUnit.ofDocument (appending inCast)).toOption.bind fun loadedWrapped =>
        (loadedWrapped.declarations.method? "p.Q#m").bind fun method =>
          (LoadedUnit.heldExpr? method 15).map fun e =>
            decide (e.isMarkedCast isCast = false ∧
              (Tracer.mk loadedWrapped .builtin 32).classify (some method) e = .constant ∧
              ((Tracer.mk loadedWrapped .builtin 32).asParens isCast).classify
                  (Tracer.contextAsParens isCast (some method)) (e.asParens isCast) =
                .blame "p" ⟨2, 1, 2, 2⟩ .parameter)) = some true := by
    decide +kernel
  obtain ⟨loaded, made, evaluated⟩ := exists_ok_of_toOption_bind evaluated
  obtain ⟨loadedWrapped, method, e, madeWrapped, listed, held, checked⟩ :=
    LoadedUnit.exists_of_evaluated evaluated
  obtain ⟨plain, constant, seen⟩ := of_decide_eq_true checked
  have adds : (appending id).AddsCasts (appending inCast) isCast := {
    casts := by decide +kernel
    tree := rfl
    model := rfl }
  obtain ⟨casts, r, injective, rfl⟩ := LoadedUnit.ofDocument_asParens adds made madeWrapped
  let tracer : Tracer := ⟨loadedWrapped, .builtin, 32⟩
  have around : tracer.InUnit (some method) := by simpa [Tracer.InUnit] using listed
  have blamed := (tracer.classify_uncast (LoadedUnit.coherent_ofDocument madeWrapped) casts
    injective around (LoadedUnit.mem_nodes_of_bodyNode listed held)).trans seen
  refine ⟨_, loadedWrapped, r, method, e, adds, made, madeWrapped, injective,
    LoadedUnit.scopedNodes_uncast casts, listed, held, plain, constant, blamed, ?_⟩
  rw [constant]
  intro same
  have unequal : Constancy.staticConstant ≠ .dynamicUnsafe := by decide
  exact unequal (same.trans (congrArg Verdict.constancy blamed))

end Casting

end BugPatterns
