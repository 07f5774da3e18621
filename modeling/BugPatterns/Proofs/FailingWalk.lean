import BugPatterns.Ast.Visit
import BugPatterns.Proofs.BoundedWalk
import BugPatterns.Proofs.Callback

/-!
# Failures end walks of nodes

A visit of the parts of a node hands out its children, and the walks of the tree below a node go on
from a node to its parts. Each of them follows a course, so an action that fails ends it at once
(`Node.walks_stop_at_failure`). The course of a traversal depends on the answers it is given, that
of the other walks is a list of items.
-/

namespace BugPatterns

/-- A walk that hands out the items of a list stops at failures. -/
theorem StopsAtFailure.of_forM {β : Type} {walk : Walk β Unit} (items : List β)
    (lists : ∀ {m : Type → Type} [Monad m] [LawfulMonad m] (act : β → m Unit),
      walk act = forM items act) : StopsAtFailure walk :=
  .of_follow (.ofItems items) fun act => by rw [lists, Course.follow_ofItems]

namespace Tree

variable {α : Type} {m : Type → Type} [Monad m]

theorem traverseAll_eq_forM (visit : α → m Bool) (ts : List (Tree α)) :
    traverseAll visit ts = forM ts (traverse visit) := by
  induction ts with
  | nil => rfl
  | cons t ts ih => rw [traverseAll, ih, List.forM_cons]

theorem walkAllWithin_eq_forM_trees [LawfulMonad m] (enter : α → Bool) (visit : α → m Unit)
    (ts : List (Tree α)) :
    walkAllWithin enter visit ts =
      forM ts fun t => if enter t.value then walkWithin enter visit t else pure () := by
  induction ts with
  | nil => rfl
  | cons t ts ih =>
      rw [walkAllWithin, ih, List.forM_cons]
      cases enter t.value with
      | false => rw [if_neg Bool.false_ne_true, if_neg Bool.false_ne_true, pure_bind]
      | true => rfl

mutual

/-- The course of a traversal: what is below a value comes after it if the answer is to go on. -/
def course : Tree α → Course α Bool
  | .node a below => .call a fun onward => if onward then courseAll below else .finished

/-- The courses of some traversals, one after the other. -/
def courseAll : List (Tree α) → Course α Bool
  | [] => .finished
  | t :: ts => t.course.append (courseAll ts)

end

mutual

theorem traverse_eq_follow [LawfulMonad m] (visit : α → m Bool) :
    ∀ t : Tree α, t.traverse visit = t.course.follow visit
  | .node a below => by
      rw [traverse, course, Course.follow]
      congr 1
      funext onward
      cases onward with
      | false => rfl
      | true =>
          rw [if_pos rfl, if_pos rfl]
          exact traverseAll_eq_follow visit below

theorem traverseAll_eq_follow [LawfulMonad m] (visit : α → m Bool) :
    ∀ ts : List (Tree α), traverseAll visit ts = (courseAll ts).follow visit
  | [] => rfl
  | t :: ts => by
      rw [traverseAll, courseAll, Course.follow_append, traverse_eq_follow visit t,
        traverseAll_eq_follow visit ts]

end

end Tree

namespace Node

variable {α : Type} {m : Type → Type} [Monad m] [LawfulMonad m]

theorem forM_option {β : Type} (f : β → Node α) (b : Option β) (visit : Node α → m Unit) :
    forM (b.map f).toList visit = b.forM fun b => visit (f b) := by
  cases b with
  | none => exact List.forM_nil
  | some b => exact (List.forM_cons).trans bind_pure_unit

omit [Monad m] [LawfulMonad m] in
theorem visitMember_eq (visit : Node α → m Unit) :
    visitMember visit = fun member => visit (.ofMember member) := by
  funext member
  cases member <;> rfl

theorem visitStmtParts_eq_forM (visit : Node α → m Unit) (s : Stmt α) :
    visitStmtParts visit s = forM (stmtChildren s) visit := by
  cases s <;>
    simp only [visitStmtParts, stmtChildren, List.forM_cons, List.forM_nil, forM_option,
      bind_pure_unit]

theorem visitExprParts_eq_forM (visit : Node α → m Unit) (e : Expr α) :
    visitExprParts visit e = forM (exprChildren e) visit := by
  cases e <;>
    simp only [visitExprParts, exprChildren, List.forM_cons, List.forM_nil, List.forM_append,
      List.forM_map, List.forM_eq_forM, forM_option, bind_pure_unit]

/-- Visiting the parts of a node hands out its children in source order. -/
theorem visitParts_eq_forEachChild (n : Node α) (visit : Node α → m Unit) :
    n.visitParts visit = n.forEachChild visit := by
  cases n with
  | stmt s => exact visitStmtParts_eq_forM visit s
  | expr e => exact visitExprParts_eq_forM visit e
  | _ =>
      simp only [visitParts, forEachChild, children, List.forM_eq_forM, List.forM_append,
        List.forM_map, forM_option, visitMember_eq]

/-- A traversal goes on with the parts of a node where the answer is to. -/
theorem traverse_tree (n : Node α) (visit : Node α → m Bool) :
    n.tree.traverse visit =
      (do if ← visit n then n.visitParts fun c => c.tree.traverse visit) := by
  rw [tree_eq, Tree.traverse]
  simp only [visitParts_eq_forEachChild, forEachChild, List.forM_eq_forM,
    Tree.traverseAll_eq_forM, List.forM_map]

/-- A bounded walk goes on with those parts of a node that can be entered. -/
theorem walkWithin_tree (enter : Node α → Bool) (n : Node α) (visit : Node α → m Unit) :
    n.tree.walkWithin enter visit = (do
      visit n
      n.visitParts fun c => if enter c then c.tree.walkWithin enter visit else pure ()) := by
  rw [tree_eq, Tree.walkWithin]
  simp only [visitParts_eq_forEachChild, forEachChild, List.forM_eq_forM,
    Tree.walkAllWithin_eq_forM_trees, List.forM_map, value_tree]

/-- An action that fails ends a walk of nodes at once, whether the walk visits the parts of a node,
    goes on where it is answered to, or enters only some nodes, and also if it hands out nothing but
    expressions. The visit takes the places of the syntax one by one, and the other walks go on by
    such visits. -/
theorem walks_stop_at_failure (root : Node α) (enter : Node α → Bool) :
    StopsAtFailure (fun visit => root.forEachChild visit) ∧
    StopsAtFailure (fun visit => root.tree.traverse visit) ∧
    StopsAtFailure (fun visit => root.tree.walkWithin enter visit) ∧
    StopsAtFailure (fun visit => root.forEachExpr enter visit) ∧
    ∀ {m : Type → Type} [Monad m] [LawfulMonad m],
      (∀ visit : Node α → m Unit, root.forEachChild visit = root.visitParts visit) ∧
      (∀ visit : Node α → m Bool, root.tree.traverse visit =
        (do if ← visit root then root.visitParts fun c => c.tree.traverse visit)) ∧
      ∀ visit : Node α → m Unit, root.tree.walkWithin enter visit = (do
        visit root
        root.visitParts fun c => if enter c then c.tree.walkWithin enter visit else pure ()) :=
  ⟨.of_forM root.children fun _ => rfl,
    .of_follow root.tree.course fun visit => root.tree.traverse_eq_follow visit,
    .of_forM (root.tree.within enter) fun visit => root.tree.walkWithin_eq_forM enter visit,
    .of_forM ((root.tree.within enter).filterMap expr?) fun visit =>
      root.forEachExpr_eq_forM enter visit,
    fun {_} _ _ => ⟨fun visit => (root.visitParts_eq_forEachChild visit).symm,
      root.traverse_tree, root.walkWithin_tree enter⟩⟩

/-- Counts the nodes it is handed, does not go on below type declarations, and refuses names. -/
def refuseNames : Callback String Nat (Node Unit) Bool := fun n count =>
  match n with
  | .expr (.ident _ name _ _) => (.error name, count)
  | n => (.ok !n.isClassDecl, count + 1)

/-- A traversal that refuses names ends at the first one. Had it gone on, it would have met the
    local class as well. -/
theorem walks_stop_at_failure_localClass :
    (localClass.tree.traverse refuseNames).run.run 0 = (.error "visible", 3) ∧
      (Walk.outcome (fun visit => localClass.tree.traverse visit) refuseNames 0).calls.map
          (fun call => call.1.kind) =
        [.method, .block, .expressionStatement, .identifier] ∧
      (Walk.outcome (fun visit => localClass.tree.traverse visit)
          (refuseNames.mended fun _ count => (true, count)) 0).calls.map (fun call => call.1.kind) =
        [.method, .block, .expressionStatement, .identifier, .ordinaryClass] := by
  obtain ⟨-, traversal, -⟩ := walks_stop_at_failure localClass fun _ => true
  have stopped := traversal.stops refuseNames (fun _ count => (true, count)) 0 3
    (.expr (.ident () "visible" none none)) 3 3 "visible" rfl ?_ rfl
  · refine ⟨?_, by rw [stopped]; rfl, rfl⟩
    rw [traversal.unlogged, stopped]
  · exact List.forall_mem_cons.mpr ⟨⟨true, 1, rfl⟩, List.forall_mem_cons.mpr ⟨⟨true, 2, rfl⟩,
      List.forall_mem_singleton.mpr ⟨true, 3, rfl⟩⟩⟩

end Node

end BugPatterns
