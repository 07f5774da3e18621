import BugPatterns.Proofs.Constancy.Scan
import BugPatterns.Proofs.Unit.Unwrap

/-!
# Definitions without added parentheses

Targets of assignments, links of chains of calls and the values that are given to a variable are
recognized through parentheses, and a call is looked up by types that parentheses carry on. So a
search finds the same definitions of a use whether or not parentheses were added
(`DefinitionSearch.run_unwrap`).
-/

namespace BugPatterns

variable {added : Site → Bool} {r : Nat → Nat} {loaded : LoadedUnit}

namespace LoadedUnit

section Wraps

variable (wraps : loaded.unit.Wraps added)

theorem symbolOf_unwrap {e : Expr Site} (kept : e.isAdded added = false) :
    (loaded.unwrap added r).symbolOf (e.unwrap added (Site.renumber r)) = loaded.symbolOf e := by
  rw [symbolOf, Expr.symbol_unwrap kept]
  rfl

include wraps

/-- Added parentheses carry the type of what they enclose. -/
theorem typeOf_unwrap {e : Expr Site} (inUnit : .expr e ∈ loaded.nodes) :
    (loaded.unwrap added r).typeOf (e.unwrap added (Site.renumber r)) = loaded.typeOf e := by
  have same : (e.unwrap added (Site.renumber r)).type = e.type := by
    induction e using Expr.stripParens.induct with
    | case1 label inner type ih =>
        cases marked : added label with
        | true =>
            rw [Expr.unwrap_of_added marked, ih (mem_nodes_of_child inUnit List.mem_cons_self)]
            exact wraps.type label inner type inUnit marked
        | false =>
            rw [Expr.unwrap_of_kept marked]
            rfl
    | case2 e notParen =>
        cases e with
        | paren => exact absurd rfl (notParen _ _ _)
        | _ => rfl
  rw [typeOf, same]
  rfl

variable {label : Site} {callee : Expr Site} {args : List (Expr Site)}
  {symbol type : Option String}

/-- A call is looked up through the same types. -/
theorem callCandidates_unwrap
    (inUnit : .expr (.call label callee args symbol type) ∈ loaded.nodes) :
    (loaded.unwrap added r).callCandidates
        ((Expr.call label callee args symbol type).unwrap added (Site.renumber r)) =
      loaded.callCandidates (.call label callee args symbol type) := by
  have direct := wraps.callee label callee args symbol type inUnit
  have calleeInUnit : .expr callee ∈ loaded.nodes := mem_nodes_of_child inUnit List.mem_cons_self
  have declared : (loaded.unwrap added r).symbolOf
      ((Expr.call label callee args symbol type).unwrap added (Site.renumber r)) =
      loaded.symbolOf (.call label callee args symbol type) := symbolOf_unwrap rfl
  unfold callCandidates
  rw [declared]
  cases callee with
  | select label target name symbol type =>
      have receiver := typeOf_unwrap wraps (r := r)
        (mem_nodes_of_child calleeInUnit List.mem_cons_self)
      simp only [Expr.unwrap, receiver]
      rfl
  | paren label inner type =>
      have direct : added label = false := direct
      simp only [Expr.unwrap, direct]
      rfl
  | _ => rfl

/-- A method is called under the same name. -/
theorem name?_unwrap {e : Expr Site} (direct : e.isAdded added = false)
    (inUnit : .expr e ∈ loaded.nodes) :
    (e.unwrap added (Site.renumber r)).name? = e.name? := by
  induction e using Expr.name?.induct with
  | case3 label callee args symbol type ih =>
      exact ih (wraps.callee label callee args symbol type inUnit)
        (mem_nodes_of_child inUnit List.mem_cons_self)
  | case4 e noIdent noSelect noCall =>
      cases e with
      | ident => exact absurd rfl (noIdent _ _ _ _)
      | select => exact absurd rfl (noSelect _ _ _ _ _)
      | call => exact absurd rfl (noCall _ _ _ _ _)
      | paren label inner type =>
          have direct : added label = false := direct
          rw [Expr.unwrap_of_kept direct]
          rfl
      | _ => rfl
  | _ => rfl

end Wraps

end LoadedUnit

/-- The event without added parentheses. -/
def DefinitionEvent.unwrap (added : Site → Bool) (r : Nat → Nat) : DefinitionEvent → DefinitionEvent
  | .replace value => .replace (value.unwrap added (Site.renumber r))
  | .extend values => .extend (values.map (Expr.unwrap added (Site.renumber r)))

/-- The definitions without added parentheses. -/
def Definitions.unwrap (added : Site → Bool) (r : Nat → Nat) (found : Definitions) : Definitions :=
  ⟨found.latest.map (Expr.unwrap added (Site.renumber r)),
    found.updates.map (Expr.unwrap added (Site.renumber r))⟩

theorem Definitions.apply_unwrap (found : Definitions) (event : DefinitionEvent) :
    (found.unwrap added r).apply (event.unwrap added r) = (found.apply event).unwrap added r := by
  cases event with
  | replace value => rfl
  | extend values => simp only [apply, DefinitionEvent.unwrap, unwrap, List.map_append]

/-- The scan without added parentheses. -/
def DefinitionScan.unwrap (added : Site → Bool) (r : Nat → Nat) (scan : DefinitionScan) :
    DefinitionScan :=
  ⟨scan.reached, scan.found.unwrap added r⟩

namespace WalkStep

/-- The node that is entered or left. -/
def node : WalkStep → Node Site
  | .enter n => n
  | .leave n => n

/-- The step with another node. -/
def mapNode (f : Node Site → Node Site) : WalkStep → WalkStep
  | .enter n => .enter (f n)
  | .leave n => .leave (f n)

end WalkStep

namespace Node

variable {captured : Bool} {n : Node Site}

/-- Without added parentheses the walk is the same, except that it does not come to them. -/
theorem walk_unwrap (captured : Bool) (n : Node Site) :
    (n.unwrap added (Site.renumber r)).walk captured =
      ((n.walk captured).filter fun s => !s.node.isAdded added).map
        (WalkStep.mapNode (unwrap added (Site.renumber r))) := by
  induction n using Node.induct with
  | node n ih =>
      cases marked : n.isAdded added with
      | true =>
          obtain ⟨label, inner, type, rfl, here⟩ := exists_of_isAdded marked
          have below := ih (.expr inner) List.mem_cons_self
          rw [walk_eq captured (n := .expr (.paren label inner type)) rfl, List.cons_append,
            List.filter_cons_of_neg (by simp [WalkStep.node, marked]), List.filter_append,
            List.filter_cons_of_neg (by simp [WalkStep.node, marked])]
          simpa [unwrap_expr, Expr.unwrap_of_added here, children, exprChildren] using below
      | false =>
          cases isClass : n.isClassDecl with
          | false =>
              have same : (n.unwrap added (Site.renumber r)).isClassDecl = false := by
                rw [isClassDecl_unwrap, isClass]
              rw [walk_eq captured same, walk_eq captured isClass, children_unwrap marked,
                List.flatMap_map, List.flatMap_congr ih]
              simp [WalkStep.node, marked, WalkStep.mapNode, List.filter_flatMap, List.map_flatMap]
          | true =>
              cases n with
              | classDecl decl =>
                  have children := children_unwrap (f := Site.renumber r) marked
                  have unwrapped : (classDecl decl).unwrap added (Site.renumber r) =
                      .classDecl (decl.unwrap added (Site.renumber r)) := rfl
                  rw [unwrapped, walk_classDecl, ← unwrapped, children, walk_classDecl]
                  cases captured with
                  | false => rfl
                  | true =>
                      simp [preorder_unwrap, List.flatMap_map, List.map_flatMap, List.filter_map,
                        List.filter_flatMap, Function.comp_def, WalkStep.node, WalkStep.mapNode]
              | _ => cases isClass

/-- A walk comes to nodes at and below its start. -/
theorem mem_preorder_of_walk {s : WalkStep} (taken : s ∈ n.walk captured) :
    s.node ∈ n.tree.preorder := by
  cases s with
  | enter m =>
      exact (entered_sublist captured n).subset
        (List.mem_filterMap.mpr ⟨.enter m, taken, rfl⟩)
  | leave m => exact mem_preorder_of_mem_ownNodes (mem_ownNodes_of_leave taken)

end Node

namespace DefinitionSearch

/-- The search in the unit without added parentheses. -/
def unwrap (added : Site → Bool) (r : Nat → Nat) (search : DefinitionSearch) : DefinitionSearch :=
  { search with loaded := search.loaded.unwrap added r, use := r search.use }

variable {search : DefinitionSearch}

/-- The variable is recognized through parentheses. -/
theorem namesVariable_unwrap (e : Expr Site) :
    (search.unwrap added r).namesVariable (e.unwrap added (Site.renumber r)) =
      search.namesVariable e := by
  have kept := e.isAdded_stripParens added
  unfold namesVariable
  rw [Expr.stripParens_unwrap]
  generalize e.stripParens = plain at kept
  cases plain with
  | ident label name symbol type => cases symbol <;> rfl
  | paren label inner type =>
      have kept : added label = false := kept
      rw [Expr.unwrap_of_kept kept]
  | _ => rfl

section Wraps

variable (wraps : search.loaded.unit.Wraps added)
include wraps

/-- A chain of calls is recognized through parentheses around its links. -/
theorem isRooted_unwrap {e : Expr Site} (inUnit : .expr e ∈ search.loaded.nodes) :
    (search.unwrap added r).isRooted (e.unwrap added (Site.renumber r)) = search.isRooted e := by
  induction e using isRooted.induct with
  | case1 label inner type ih =>
      have inner := ih (LoadedUnit.mem_nodes_of_child inUnit List.mem_cons_self)
      cases marked : added label with
      | true => rw [Expr.unwrap_of_added marked, inner, isRooted]
      | false => rw [Expr.unwrap_of_kept marked, isRooted, inner, isRooted]
  | case2 label select target name member memberType args symbol type ih =>
      have calleeInUnit : .expr (.select select target name member memberType) ∈
          search.loaded.nodes := LoadedUnit.mem_nodes_of_child inUnit List.mem_cons_self
      have candidates := LoadedUnit.callCandidates_unwrap wraps (r := r) inUnit
      have chain := ih (LoadedUnit.mem_nodes_of_child calleeInUnit List.mem_cons_self)
      simp only [Expr.unwrap] at candidates ⊢
      rw [isRooted, chain, isRooted, mutates, mutates]
      simp only [unwrap, candidates]
      rfl
  | case3 label callee args symbol type direct =>
      have kept := wraps.callee label callee args symbol type inUnit
      cases callee with
      | select => exact absurd rfl (direct _ _ _ _ _)
      | paren inside inner _ =>
          have kept : added inside = false := kept
          simp only [Expr.unwrap, kept]
          rfl
      | _ => rfl
  | case4 e notParen notSelected notCall =>
      have names := @namesVariable_unwrap added r search e
      cases e with
      | paren => exact absurd rfl (notParen _ _ _)
      | call => exact absurd rfl (notCall _ _ _ _ _)
      | _ => exact names

/-- A node does the same to the variable. -/
theorem event?_unwrap {n : Node Site} (kept : n.isAdded added = false)
    (inUnit : n ∈ search.loaded.nodes) :
    (search.unwrap added r).event? (n.unwrap added (Site.renumber r)) =
      (search.event? n).map (DefinitionEvent.unwrap added r) := by
  cases n with
  | varDecl decl =>
      show (search.unwrap added r).event? (.varDecl (decl.unwrap added _)) = _
      rw [VarDecl.unwrap_eq]
      simp only [event?]
      split
      · next named =>
          rw [if_pos (show decl.symbol = some search.key from named), Option.map_map,
            Option.map_map]
          rfl
      · next other => rw [if_neg (show ¬ decl.symbol = some search.key from other)]; rfl
  | expr e =>
      cases e with
      | assign label op target value type =>
          simp only [Node.unwrap_expr, Expr.unwrap, event?, namesVariable_unwrap]
          split
          · split <;> rfl
          · rfl
      | call label callee args symbol type =>
          have rooted := isRooted_unwrap wraps (r := r) inUnit
          simp only [Node.unwrap_expr, Expr.unwrap, Expr.unwrapAll_eq_map] at rooted ⊢
          simp only [event?, rooted]
          split <;> rfl
      | paren label inner type =>
          have kept : added label = false := kept
          rw [Node.unwrap_expr, Expr.unwrap_of_kept kept]
          rfl
      | _ => rfl
  | _ => rfl

theorem leave_unwrap {n : Node Site} (kept : n.isAdded added = false)
    (inUnit : n ∈ search.loaded.nodes) (scan : DefinitionScan) :
    (search.unwrap added r).leave false (n.unwrap added (Site.renumber r)) (scan.unwrap added r) =
      (search.leave false n scan).unwrap added r := by
  have reached : (scan.unwrap added r).reached = scan.reached := rfl
  unfold leave
  rw [event?_unwrap wraps kept inUnit, reached]
  split
  · rfl
  · cases search.event? n with
    | none => rfl
    | some event =>
        exact congrArg (DefinitionScan.mk scan.reached) (Definitions.apply_unwrap _ _)

theorem step_unwrap (injective : Function.Injective r) {s : WalkStep}
    (kept : s.node.isAdded added = false) (inUnit : s.node ∈ search.loaded.nodes)
    (scan : DefinitionScan) :
    (search.unwrap added r).step (scan.unwrap added r)
        (s.mapNode (Node.unwrap added (Site.renumber r))) =
      (search.step scan s).unwrap added r := by
  cases s with
  | enter n =>
      cases n with
      | expr e =>
          have number : (e.unwrap added (Site.renumber r)).label.number = r e.label.number := by
            rw [Expr.label_unwrap kept]
            rfl
          have same : r e.label.number = r search.use ↔ e.label.number = search.use :=
            injective.eq_iff
          simp only [WalkStep.mapNode, Node.unwrap_expr, step, number]
          by_cases here : e.label.number = search.use
          · rw [if_pos here]
            exact if_pos (same.mpr here)
          · rw [if_neg here]
            exact if_neg fun equal => here (same.mp equal)
      | _ => rfl
  | leave n => exact leave_unwrap wraps kept inUnit scan

end Wraps

/-- Added parentheses do nothing to the variable, and are not its use. -/
theorem step_added {s : WalkStep} (marked : s.node.isAdded added = true)
    (apart : s.node.number ≠ search.use) (scan : DefinitionScan) : search.step scan s = scan := by
  cases s with
  | enter n =>
      obtain ⟨label, inner, type, rfl, -⟩ := Node.exists_of_isAdded marked
      exact if_neg apart
  | leave n =>
      obtain ⟨label, inner, type, rfl, -⟩ := Node.exists_of_isAdded marked
      simp [step, leave, event?]

/-- Without added parentheses a search finds the same definitions, if it is headed for a node that
    is still there. -/
theorem run_unwrap (wraps : search.loaded.unit.Wraps added) (injective : Function.Injective r)
    (apart : ∀ n ∈ search.loaded.nodes, n.isAdded added = true → n.number ≠ search.use)
    {method : MethodDecl Site} (listed : .method method ∈ search.loaded.nodes) :
    (search.unwrap added r).run (method.unwrap added (Site.renumber r)) =
      (search.run method).map (Definitions.unwrap added r) := by
  have folded (steps : List WalkStep) (inUnit : ∀ s ∈ steps, s.node ∈ search.loaded.nodes) :
      ∀ scan : DefinitionScan, ((steps.filter fun s => !s.node.isAdded added).map
          (WalkStep.mapNode (Node.unwrap added (Site.renumber r)))).foldl
            (search.unwrap added r).step (scan.unwrap added r) =
        (steps.foldl search.step scan).unwrap added r := by
    induction steps with
    | nil => exact fun _ => rfl
    | cons s steps ih =>
        intro scan
        obtain ⟨here, rest⟩ := List.forall_mem_cons.mp inUnit
        cases marked : s.node.isAdded added with
        | true =>
            rw [List.filter_cons_of_neg (by simp [marked]), List.foldl_cons,
              step_added marked (apart _ here marked), ih rest]
        | false =>
            rw [List.filter_cons_of_pos (by simp [marked]), List.map_cons, List.foldl_cons,
              List.foldl_cons, step_unwrap wraps injective marked here, ih rest]
  have body : (method.unwrap added (Site.renumber r)).body =
      method.body.map (Block.unwrap added (Site.renumber r)) :=
    congrArg MethodDecl.body method.unwrap_eq
  unfold run
  rw [body]
  cases present : method.body with
  | none => rfl
  | some b =>
      have bodyListed : .block b ∈ search.loaded.nodes :=
        LoadedUnit.mem_nodes_of_child listed (method.mem_children_of_body present)
      have scanned : (search.unwrap added r).scanTree false
          (b.unwrap added (Site.renumber r)).tree ⟨false, .empty⟩ =
          (search.scanTree false b.tree ⟨false, .empty⟩).unwrap added r := by
        have here := @scanTree_eq_foldl (search.unwrap added r)
          (.block (b.unwrap added (Site.renumber r))) ⟨false, .empty⟩
        have there := @scanTree_eq_foldl search (.block b) ⟨false, .empty⟩
        have unwrapped : Node.block (b.unwrap added (Site.renumber r)) =
            (Node.block b).unwrap added (Site.renumber r) := rfl
        rw [unwrapped, Node.walk_unwrap] at here
        have inUnit : ∀ s ∈ (Node.block b).walk search.captured, s.node ∈ search.loaded.nodes :=
          fun s taken => LoadedUnit.mem_nodes_trans bodyListed (Node.mem_preorder_of_walk taken)
        exact here.trans ((folded _ inUnit ⟨false, .empty⟩).trans (congrArg _ there.symm))
      simp only [Option.map_some, scanned]
      generalize search.scanTree false b.tree ⟨false, .empty⟩ = scan
      cases reached : scan.reached <;> simp [DefinitionScan.unwrap, reached]

end DefinitionSearch

namespace LoadedUnit

section Definitions

variable (coherent : loaded.Coherent) (wraps : loaded.unit.Wraps added)
  (injective : Function.Injective r) {method : MethodDecl Site} {use : Expr Site}
  (listed : .method method ∈ loaded.nodes) (inUnit : .expr use ∈ loaded.nodes)
  (kept : use.isAdded added = false) (catalog : Catalog) (key : String)
include coherent inUnit kept

/-- A node that was not added is told apart from added parentheses by its number. -/
theorem Coherent.number_ne_of_added {n : Node Site} (member : n ∈ loaded.nodes)
    (marked : n.isAdded added = true) : n.number ≠ use.label.number := by
  intro same
  obtain rfl := coherent.eq_of_number member inUnit same
  have marked : use.isAdded added = true := marked
  rw [kept] at marked
  cases marked

include wraps injective listed

theorem reachingDefinitions_unwrap :
    (loaded.unwrap added r).reachingDefinitions catalog (method.unwrap added (Site.renumber r)) key
        (use.unwrap added (Site.renumber r)) =
      (loaded.reachingDefinitions catalog method key use).map (Definitions.unwrap added r) := by
  rw [reachingDefinitions, Expr.label_unwrap kept]
  exact @DefinitionSearch.run_unwrap added r ⟨loaded, catalog, key, use.label.number, false⟩ wraps
    injective (fun n member => coherent.number_ne_of_added inUnit kept member) method listed

theorem capturedDefinitions_unwrap :
    (loaded.unwrap added r).capturedDefinitions catalog (method.unwrap added (Site.renumber r)) key
        (use.unwrap added (Site.renumber r)) =
      (loaded.capturedDefinitions catalog method key use).map (Definitions.unwrap added r) := by
  rw [capturedDefinitions, Expr.label_unwrap kept]
  exact @DefinitionSearch.run_unwrap added r ⟨loaded, catalog, key, use.label.number, true⟩ wraps
    injective (fun n member => coherent.number_ne_of_added inUnit kept member) method listed

end Definitions

end LoadedUnit

end BugPatterns
