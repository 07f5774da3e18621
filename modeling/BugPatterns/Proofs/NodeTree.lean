import BugPatterns.Ast.NodeTree
import BugPatterns.Proofs.Tree
import Mathlib.Logic.Relation

/-!
# The tree below a node

The tree of a node is the node with the trees of its children below it (`Node.tree_eq`), so every
walk of it can be followed from a node to its children, and the full one lists what children lead to
(`Node.contains_iff`). `Node.ownNodes` lists what lies at or below a node in no type declaration
below it.
-/

namespace BugPatterns

variable {α : Type}

namespace Expr

theorem trees_eq_map (es : List (Expr α)) : trees es = es.map Expr.tree := by
  induction es with
  | nil => rfl
  | cons e es ih => rw [trees, ih, List.map_cons]

theorem optionTrees_eq_map (e : Option (Expr α)) : optionTrees e = e.toList.map Expr.tree := by
  cases e <;> rfl

end Expr

theorem VarDecl.trees_eq_map (vs : List (VarDecl α)) : trees vs = vs.map VarDecl.tree := by
  induction vs with
  | nil => rfl
  | cons v vs ih => rw [trees, ih, List.map_cons]

theorem Block.bodyTrees_eq_map (b : Option (Block α)) : bodyTrees b = b.toList.map Block.tree := by
  cases b <;> rfl

theorem ClassDecl.bodyTrees_eq_map (decl : Option (ClassDecl α)) :
    bodyTrees decl = decl.toList.map ClassDecl.tree := by
  cases decl <;> rfl

namespace Node

@[simp] theorem tree_ofStmt (s : Stmt α) : (ofStmt s).tree = s.tree := by
  cases s <;> rfl

@[simp] theorem tree_ofMember (m : Member α) : (ofMember m).tree = m.tree := by
  cases m <;> rfl

theorem map_tree_ofStmt (ss : List (Stmt α)) :
    (ss.map ofStmt).map Node.tree = Stmt.trees ss := by
  induction ss with
  | nil => rfl
  | cons s ss ih => rw [List.map_cons, List.map_cons, ih, tree_ofStmt, Stmt.trees]

theorem map_tree_ofMember (ms : List (Member α)) :
    (ms.map ofMember).map Node.tree = Member.trees ms := by
  induction ms with
  | nil => rfl
  | cons m ms ih => rw [List.map_cons, List.map_cons, ih, tree_ofMember, Member.trees]

theorem tree_expr_eq (e : Expr α) : e.tree = .node (.expr e) ((exprChildren e).map Node.tree) := by
  cases e <;>
    simp only [Expr.tree, exprChildren, Expr.trees_eq_map, ClassDecl.bodyTrees_eq_map,
      List.map_cons, List.map_nil, List.map_append, List.map_map, Option.toList_map] <;>
    rfl

theorem tree_stmt_eq (s : Stmt α) :
    (Node.stmt s).tree = .node (.stmt s) ((stmtChildren s).map Node.tree) := by
  cases s with
  | ret label value => cases value <;> rfl
  | ifElse label cond whenTrue whenFalse =>
      cases whenFalse <;>
        simp only [stmtChildren, List.map_cons, List.map_nil, Option.map_none, Option.map_some,
          Option.toList_none, Option.toList_some, tree_ofStmt] <;>
        rfl
  | whileLoop label cond body =>
      simp only [stmtChildren, List.map_cons, List.map_nil, tree_ofStmt]
      rfl
  | _ => rfl

/-- The tree of a node is the node, and below it the trees of its children. -/
theorem tree_eq (n : Node α) : n.tree = .node n (n.children.map Node.tree) := by
  cases n with
  | unit u =>
      simp only [Node.tree, CompilationUnit.tree, children, List.map_map]
      rfl
  | classDecl decl =>
      obtain ⟨label, kind, name, symbol, members⟩ := decl
      simp only [Node.tree, ClassDecl.tree, children, map_tree_ofMember]
  | method decl =>
      obtain ⟨label, name, symbol, params, body⟩ := decl
      simp only [Node.tree, MethodDecl.tree, children, VarDecl.trees_eq_map,
        Block.bodyTrees_eq_map, List.map_append, List.map_map, Option.toList_map]
      rfl
  | varDecl decl =>
      obtain ⟨label, name, symbol, type, init⟩ := decl
      simp only [Node.tree, VarDecl.tree, children, Expr.optionTrees_eq_map, Option.toList_map,
        List.map_map]
      rfl
  | block b =>
      obtain ⟨label, stmts⟩ := b
      simp only [Node.tree, Block.tree, children, map_tree_ofStmt]
  | stmt s => exact tree_stmt_eq s
  | expr e => exact tree_expr_eq e

@[simp] theorem value_tree (n : Node α) : n.tree.value = n := by rw [tree_eq, Tree.value_node]

/-- Induction over the nodes at and below a node: a node is settled once its children are. -/
theorem induct {motive : Node α → Prop}
    (node : ∀ n, (∀ c ∈ n.children, motive c) → motive n) (n : Node α) : motive n := by
  have settled : ∀ t : Tree (Node α), ∀ n : Node α, n.tree = t → motive n := by
    intro t
    induction t using Tree.induct with
    | node a below ih =>
        intro n equal
        rw [tree_eq, Tree.node.injEq] at equal
        obtain ⟨-, rfl⟩ := equal
        exact node n fun c member => ih c.tree (List.mem_map_of_mem member) c rfl
  exact settled n.tree n rfl

theorem preorder_tree (n : Node α) :
    n.tree.preorder = n :: n.children.flatMap fun c => c.tree.preorder := by
  rw [tree_eq, Tree.preorder, Tree.preorderAll_eq_flatMap, List.flatMap_map]

theorem within_tree (enter : Node α → Bool) (n : Node α) :
    n.tree.within enter = n :: (n.children.filter enter).flatMap fun c => c.tree.within enter := by
  rw [tree_eq, Tree.within, Tree.withinAll_eq_flatMap, List.filter_map, List.flatMap_map]
  simp only [Function.comp_def, value_tree]

theorem underScopes_tree {β : Type} (mark : Node α → Option β) (scopes : List β) (n : Node α) :
    n.tree.underScopes mark scopes = (scopes, n) ::
      n.children.flatMap fun c => c.tree.underScopes mark ((mark n).toList ++ scopes) := by
  rw [tree_eq, Tree.underScopes, Tree.underScopesAll_eq_flatMap, List.flatMap_map]

/-- The node as a type declaration. -/
def classDecl? : Node α → Option (ClassDecl α)
  | .classDecl decl => some decl
  | _ => none

theorem not_isClassDecl (n : Node α) : (!n.isClassDecl) = n.classDecl?.isNone := by
  cases n <;> rfl

/-- The node as a method. -/
def method? : Node α → Option (MethodDecl α)
  | .method decl => some decl
  | _ => none

/-- The nodes at or below a node that lie in no type declaration below it. -/
def ownNodes (n : Node α) : List (Node α) := n.tree.within fun m => !m.isClassDecl

theorem ownNodes_eq (n : Node α) :
    n.ownNodes = n :: (n.children.filter fun c => !c.isClassDecl).flatMap ownNodes :=
  within_tree _ n

theorem mem_ownNodes_self (n : Node α) : n ∈ n.ownNodes := by
  rw [ownNodes_eq]
  exact List.mem_cons_self

/-- A node below the root lies in the own nodes of a child that is no type declaration. -/
theorem mem_ownNodes {m n : Node α} :
    m ∈ n.ownNodes ↔ m = n ∨ ∃ c ∈ n.children, c.isClassDecl = false ∧ m ∈ c.ownNodes := by
  rw [ownNodes_eq]
  simp only [List.mem_cons, List.mem_flatMap, List.mem_filter, Bool.not_eq_true', and_assoc]

/-- Own nodes of an own node are own nodes. -/
theorem ownNodes_trans {k m n : Node α} (inner : k ∈ m.ownNodes) (outer : m ∈ n.ownNodes) :
    k ∈ n.ownNodes := by
  induction n using Node.induct with
  | node n ih =>
      rcases mem_ownNodes.mp outer with rfl | ⟨c, child, entered, below⟩
      · exact inner
      · exact mem_ownNodes.mpr (Or.inr ⟨c, child, entered, ih c child below⟩)

theorem mem_ownNodes_of_child {c n : Node α} (child : c ∈ n.children)
    (entered : c.isClassDecl = false) : c ∈ n.ownNodes :=
  mem_ownNodes.mpr (Or.inr ⟨c, child, entered, c.mem_ownNodes_self⟩)

theorem mem_preorder_of_child {m c n : Node α} (child : c ∈ n.children)
    (member : m ∈ c.tree.preorder) : m ∈ n.tree.preorder := by
  rw [preorder_tree]
  exact List.mem_cons_of_mem _ (List.mem_flatMap.mpr ⟨c, child, member⟩)

theorem mem_preorder_self (n : Node α) : n ∈ n.tree.preorder := by
  rw [preorder_tree]
  exact List.mem_cons_self

theorem mem_preorder_of_mem_ownNodes {m n : Node α} (member : m ∈ n.ownNodes) :
    m ∈ n.tree.preorder :=
  (Tree.within_sublist_preorder _ _).subset member

/-- What lies below a node that lies below another one lies below that one. -/
theorem mem_preorder_trans {k m n : Node α} (inner : k ∈ m.tree.preorder)
    (outer : m ∈ n.tree.preorder) : k ∈ n.tree.preorder := by
  induction n using Node.induct with
  | node n ih =>
      rw [preorder_tree] at outer
      rcases List.mem_cons.mp outer with rfl | below
      · exact inner
      · obtain ⟨c, child, below⟩ := List.mem_flatMap.mp below
        exact mem_preorder_of_child child (ih c child below)

/-- Children lead from a node down to another one, which may be the same. -/
def Contains (n m : Node α) : Prop := Relation.ReflTransGen (fun n c => c ∈ n.children) n m

/-- The walk of a node lists what it contains. -/
theorem contains_iff {m n : Node α} : n.Contains m ↔ m ∈ n.tree.preorder := by
  constructor
  · intro path
    induction path using Relation.ReflTransGen.head_induction_on with
    | refl => exact m.mem_preorder_self
    | head child _ ih => exact mem_preorder_of_child child ih
  · intro listed
    induction n using Node.induct with
    | node n ih =>
        rw [preorder_tree] at listed
        rcases List.mem_cons.mp listed with rfl | below
        · exact .refl
        · obtain ⟨c, child, below⟩ := List.mem_flatMap.mp below
          exact .head child (ih c child below)

/-- A part of a tree is listed as a part of its listing. -/
theorem preorder_sublist_of_mem {m n : Node α} (below : m ∈ n.tree.preorder) :
    m.tree.preorder.Sublist n.tree.preorder := by
  induction n using Node.induct with
  | node n ih =>
      rw [preorder_tree] at below
      rcases List.mem_cons.mp below with rfl | below
      · exact List.Sublist.refl _
      · obtain ⟨c, child, below⟩ := List.mem_flatMap.mp below
        refine (ih c child below).trans ?_
        rw [preorder_tree n, List.flatMap_def]
        have part : c.tree.preorder ∈ n.children.map fun c => c.tree.preorder :=
          List.mem_map.mpr ⟨c, child, rfl⟩
        exact (List.sublist_flatten_of_mem part).trans (List.sublist_cons_self _ _)

end Node

end BugPatterns
