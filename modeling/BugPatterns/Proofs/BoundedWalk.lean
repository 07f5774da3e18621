import BugPatterns.Proofs.Ancestors
import BugPatterns.Proofs.NodeTree

/-!
# Bounded walks

A walk that enters only some nodes and a traversal that goes on only below some nodes are two
recursions; one asks before it visits a node, the other after it. Below the root the first meets the
nodes that can be entered through nodes that can be entered (`Node.entered`), the second all those
that such nodes lead to (`Node.reachedThrough`). So the two agree, except for the nodes at which the
second stops (`Node.walkWithin_agrees_with_traverse`).
-/

namespace BugPatterns

namespace Tree

variable {α : Type}

/-- The values that have only values satisfying `go` above them, in preorder. -/
def reached (go : α → Bool) (t : Tree α) : List α :=
  ((t.underScopes some []).filter fun placed => placed.1.all go).map Prod.snd

theorem reached_node (go : α → Bool) (a : α) (below : List (Tree α)) :
    (node a below).reached go = a :: if go a then below.flatMap (reached go) else [] := by
  unfold reached
  rw [underScopes_nil, List.filter_cons_of_pos (by rfl), List.map_cons, List.filter_flatMap,
    List.map_flatMap]
  congr 1
  -- Whether the root lets a walk go on decides about all values below it at once.
  cases onward : go a with
  | true =>
      simp only [List.filter_map, List.map_map, Function.comp_def, List.all_append, List.all_cons,
        List.all_nil, onward, Bool.and_true, if_true]
  | false =>
      simp only [List.filter_map, Function.comp_def, List.all_append, List.all_cons, onward,
        Bool.false_and, Bool.and_false, List.filter_false, List.map_nil]
      exact List.flatMap_eq_nil_iff.mpr fun _ _ => rfl

mutual

/-- Those of them that satisfy `go` themselves are what a walk lists that enters no others. -/
theorem filter_reached (go : α → Bool) :
    ∀ t : Tree α, (t.reached go).filter go = if go t.value then t.within go else []
  | .node a below => by
      rw [reached_node, value_node, within, List.filter_cons]
      cases go a with
      | false => rfl
      | true => rw [if_pos rfl, if_pos rfl, if_pos rfl, filter_flatMap_reached go below]

theorem filter_flatMap_reached (go : α → Bool) :
    ∀ ts : List (Tree α), (ts.flatMap (reached go)).filter go = withinAll go ts
  | [] => rfl
  | t :: ts => by
      rw [List.flatMap_cons, List.filter_append, withinAll, filter_reached go t,
        filter_flatMap_reached go ts]

end

mutual

/-- A walk that enters only some values hands out what `within` lists. -/
theorem walkWithin_eq_forM {m : Type → Type} [Monad m] [LawfulMonad m] (enter : α → Bool)
    (visit : α → m Unit) :
    ∀ t : Tree α, t.walkWithin enter visit = forM (t.within enter) visit
  | .node a below => by
      rw [walkWithin, within, walkAllWithin_eq_forM enter visit below, List.forM_cons]

theorem walkAllWithin_eq_forM {m : Type → Type} [Monad m] [LawfulMonad m] (enter : α → Bool)
    (visit : α → m Unit) :
    ∀ ts : List (Tree α), walkAllWithin enter visit ts = forM (withinAll enter ts) visit
  | [] => by rw [walkAllWithin, withinAll, List.forM_nil]
  | t :: ts => by
      rw [walkAllWithin, withinAll, List.forM_append, walkAllWithin_eq_forM enter visit ts]
      cases enter t.value with
      | false =>
          rw [if_neg Bool.false_ne_true, if_neg Bool.false_ne_true, List.forM_nil, pure_bind]
      | true => rw [if_pos rfl, if_pos rfl, walkWithin_eq_forM enter visit t]

end

mutual

/-- A traversal that goes on only below some values hands out what it reaches through them. -/
theorem traverse_eq_forM_reached {m : Type → Type} [Monad m] [LawfulMonad m] (go : α → Bool)
    (act : α → m Unit) :
    ∀ t : Tree α, (t.traverse fun a => do act a; return go a) = forM (t.reached go) act
  | .node a below => by
      rw [traverse, reached_node, List.forM_cons, bind_assoc]
      simp only [pure_bind, traverseAll_eq_forM_reached go act below]
      cases go a with
      | false => rw [if_neg Bool.false_ne_true, if_neg Bool.false_ne_true, List.forM_nil]
      | true => rw [if_pos rfl, if_pos rfl]

theorem traverseAll_eq_forM_reached {m : Type → Type} [Monad m] [LawfulMonad m] (go : α → Bool)
    (act : α → m Unit) :
    ∀ ts : List (Tree α), traverseAll (fun a => do act a; return go a) ts =
      forM (ts.flatMap (reached go)) act
  | [] => by rw [traverseAll, List.flatMap_nil, List.forM_nil]
  | t :: ts => by
      rw [traverseAll, List.flatMap_cons, List.forM_append, traverse_eq_forM_reached go act t,
        traverseAll_eq_forM_reached go act ts]

end

end Tree

namespace Node

variable {α : Type}

/-- The nodes below a node in preorder, each with the nodes that lie strictly between, innermost
    first. -/
def descendants (root : Node α) : List (List (Node α) × Node α) :=
  root.children.flatMap fun c => c.tree.underScopes some []

theorem preorder_eq_descendants (root : Node α) :
    root.tree.preorder = root :: root.descendants.map Prod.snd := by
  rw [preorder_tree, descendants, List.map_flatMap]
  simp only [Tree.map_snd_underScopes]

/-- What lies below a node is not the node itself. -/
theorem ne_of_mem_descendants {root : Node α} {placed : List (Node α) × Node α}
    (below : placed ∈ root.descendants) : ∀ n ∈ placed.2 :: placed.1, n ≠ root := by
  rintro n member rfl
  obtain ⟨c, child, listed⟩ := List.mem_flatMap.mp below
  have inside := Tree.mem_preorder_of_above c.tree placed listed n member
  have shorter := (preorder_sublist_of_mem inside).length_le
  -- The listing of a node is longer than that of any of its children.
  have part : c.tree.preorder.Sublist (n.children.flatMap fun c => c.tree.preorder) := by
    rw [List.flatMap_def]
    exact List.sublist_flatten_of_mem (List.mem_map.mpr ⟨c, child, rfl⟩)
  have longer := part.length_le
  rw [preorder_tree n, List.length_cons] at shorter
  omega

/-- The root and those nodes below it that satisfy `enter`, as do all nodes strictly between. -/
def entered (enter : Node α → Bool) (root : Node α) : List (Node α) :=
  root :: (root.descendants.filter fun placed => (placed.2 :: placed.1).all enter).map Prod.snd

/-- The root and those nodes below it to which only nodes satisfying `enter` lead. -/
def reachedThrough (enter : Node α → Bool) (root : Node α) : List (Node α) :=
  root :: (root.descendants.filter fun placed => placed.1.all enter).map Prod.snd

theorem flatMap_reached_children (go : Node α → Bool) (root : Node α) :
    (root.children.map Node.tree).flatMap (Tree.reached go) =
      (root.descendants.filter fun placed => placed.1.all go).map Prod.snd := by
  rw [List.flatMap_map, descendants, List.filter_flatMap, List.map_flatMap]
  rfl

theorem within_eq_entered (enter : Node α → Bool) (root : Node α) :
    root.tree.within enter = root.entered enter := by
  rw [tree_eq, Tree.within, ← Tree.filter_flatMap_reached, flatMap_reached_children,
    List.filter_map, List.filter_filter]
  rfl

section Agree

variable {go enter : Node α → Bool} {root : Node α} (onward : go root = true)
  (agree : ∀ n, n ≠ root → go n = enter n)

include onward agree

/-- A traversal that goes on below its root asks about that node no more. -/
theorem reached_eq_reachedThrough : root.tree.reached go = root.reachedThrough enter := by
  rw [tree_eq, Tree.reached_node, onward, if_pos rfl, flatMap_reached_children, reachedThrough]
  congr 2
  refine List.filter_congr fun placed below => ?_
  have apart := ne_of_mem_descendants below
  rw [Bool.eq_iff_iff, List.all_eq_true, List.all_eq_true]
  exact forall₂_congr fun n between => by rw [agree n (apart n (List.mem_cons_of_mem _ between))]

theorem filter_reachedThrough : (root.reachedThrough enter).filter go = root.entered enter := by
  rw [reachedThrough, List.filter_cons_of_pos onward, List.filter_map, List.filter_filter, entered]
  congr 2
  refine List.filter_congr fun placed below => ?_
  rw [Function.comp_apply, agree _ (ne_of_mem_descendants below _ List.mem_cons_self),
    List.all_cons]

end Agree

/-- The expressions outside nested types are those with no type declaration between the root and
    themselves; an expression is none itself. -/
theorem ownExprs_eq_descendants (root : Node α) :
    root.ownExprs = ((([], root) :: root.descendants).filter fun placed =>
      placed.1.all fun n => !n.isClassDecl).filterMap fun placed => placed.2.expr? := by
  rw [ownExprs, within_eq_entered, entered, List.filter_cons_of_pos (by rfl), List.filterMap_cons,
    List.filterMap_cons, List.filterMap_map, List.filterMap_filter, List.filterMap_filter]
  have same (placed : List (Node α) × Node α) :
      (if (placed.2 :: placed.1).all fun n => !n.isClassDecl then placed.2.expr? else none) =
        if placed.1.all fun n => !n.isClassDecl then placed.2.expr? else none := by
    obtain ⟨between, n⟩ := placed
    cases n <;> simp [expr?, isClassDecl]
  simp only [Function.comp_apply, same]

theorem forEachExpr_eq_forM {m : Type → Type} [Monad m] [LawfulMonad m] (enter : Node α → Bool)
    (root : Node α) (visit : Expr α → m Unit) :
    root.forEachExpr enter visit = forM ((root.tree.within enter).filterMap expr?) visit := by
  rw [forEachExpr, Tree.walkWithin_eq_forM]
  generalize root.tree.within enter = nodes
  induction nodes with
  | nil => rfl
  | cons n nodes ih =>
      rw [List.forM_cons, ih, List.filterMap_cons]
      cases n <;> simp [expr?]

open Classical in
/-- A walk that enters only some nodes visits the root and then, in the order of the full traversal
    and each once, the nodes below it that can be entered, as can all nodes strictly between. That
    is what a traversal visits that goes on below the root and below the nodes that can be entered,
    less the nodes at which it stops. The walk over expressions visits those among the nodes; if it
    enters no type declarations, these are the expressions with none between the root and
    themselves. -/
theorem walkWithin_agrees_with_traverse (root : Node α) (enter : Node α → Bool) :
    root.tree.preorder = root :: root.descendants.map Prod.snd ∧
    root.entered enter =
      (root.reachedThrough enter).filter (fun n => decide (n = root) || enter n) ∧
    (∀ {m : Type → Type} [Monad m] [LawfulMonad m] (visit : Node α → m Unit),
      (root.tree.traverse fun n => do visit n; return true) = forM root.tree.preorder visit ∧
      (root.tree.traverse fun n => do visit n; return decide (n = root) || enter n) =
        forM (root.reachedThrough enter) visit ∧
      root.tree.walkWithin enter visit = forM (root.entered enter) visit) ∧
    ∀ {m : Type → Type} [Monad m] [LawfulMonad m] (visit : Expr α → m Unit),
      root.forEachExpr enter visit = forM ((root.entered enter).filterMap expr?) visit ∧
      root.forEachExpr (fun n => !n.isClassDecl) visit = forM root.ownExprs visit ∧
      root.ownExprs = ((([], root) :: root.descendants).filter fun placed =>
        placed.1.all fun n => !n.isClassDecl).filterMap fun placed => placed.2.expr? := by
  have onward : (decide (root = root) || enter root) = true := by simp
  have agree (n : Node α) (apart : n ≠ root) : (decide (n = root) || enter n) = enter n := by
    simp [apart]
  refine ⟨root.preorder_eq_descendants, (filter_reachedThrough onward agree).symm,
    fun visit => ⟨root.tree.traverse_eq_forM visit, ?_, ?_⟩,
    fun visit => ⟨?_, root.forEachExpr_eq_forM _ visit, root.ownExprs_eq_descendants⟩⟩
  · rw [← reached_eq_reachedThrough onward agree]
    exact root.tree.traverse_eq_forM_reached _ visit
  · rw [← within_eq_entered]
    exact root.tree.walkWithin_eq_forM enter visit
  · rw [forEachExpr_eq_forM, within_eq_entered]

/-- A method with a local class, in whose initializer a name stands. -/
def localClass : Node Unit :=
  .method ⟨(), "run", none, [], some ⟨(), [
    .expression () (.ident () "visible" none none),
    .classDecl ⟨(), .ordinary, some "Local", none,
      [.initBlock ⟨(), [.expression () (.ident () "hidden" none none)]⟩]⟩]⟩⟩

/-- Notes the kind of a node that is visited. -/
def noteKind (n : Node Unit) : StateM (List NodeKind) Unit := modify (· ++ [n.kind])

/-- A traversal that stops at type declarations visits the class, the walk that does not enter it
    leaves it out. -/
theorem walkWithin_agrees_with_traverse_localClass :
    ((localClass.tree.walkWithin (fun n => !n.isClassDecl) noteKind).run []).2 =
        [.method, .block, .expressionStatement, .identifier] ∧
      (localClass.reachedThrough fun n => !n.isClassDecl).map kind =
        [.method, .block, .expressionStatement, .identifier, .ordinaryClass] := by
  obtain ⟨-, -, walks, -⟩ :=
    walkWithin_agrees_with_traverse localClass fun n => !n.isClassDecl
  rw [(walks noteKind).2.2]
  exact ⟨rfl, rfl⟩

end Node

end BugPatterns
