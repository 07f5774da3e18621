import BugPatterns.Ast.Node
import BugPatterns.Tree

/-!
# The tree below a node

`Node.tree` has the nodes at and below a node as its values. A declaration or a block that stands
as a statement appears once, as itself.
-/

namespace BugPatterns

mutual

/-- The tree of an expression. -/
def Expr.tree {α : Type} : Expr α → Tree (Node α)
  | e@(.literal ..) => .node (.expr e) []
  | e@(.ident ..) => .node (.expr e) []
  | e@(.select _ target _ _ _) => .node (.expr e) [target.tree]
  | e@(.call _ callee args _ _) => .node (.expr e) (callee.tree :: Expr.trees args)
  | e@(.creation _ args body _ _) => .node (.expr e) (Expr.trees args ++ ClassDecl.bodyTrees body)
  | e@(.assign _ _ target value _) => .node (.expr e) [target.tree, value.tree]
  | e@(.binary _ _ lhs rhs _) => .node (.expr e) [lhs.tree, rhs.tree]
  | e@(.unary _ _ operand _) => .node (.expr e) [operand.tree]
  | e@(.paren _ inner _) => .node (.expr e) [inner.tree]
  | e@(.cast _ operand _) => .node (.expr e) [operand.tree]
  | e@(.conditional _ cond whenTrue whenFalse _) =>
      .node (.expr e) [cond.tree, whenTrue.tree, whenFalse.tree]
  | e@(.index _ target position _) => .node (.expr e) [target.tree, position.tree]

/-- The trees of some expressions. -/
def Expr.trees {α : Type} : List (Expr α) → List (Tree (Node α))
  | [] => []
  | e :: es => e.tree :: Expr.trees es

/-- The tree of an expression that may be absent. -/
def Expr.optionTrees {α : Type} : Option (Expr α) → List (Tree (Node α))
  | none => []
  | some e => [e.tree]

/-- The tree of a statement. -/
def Stmt.tree {α : Type} : Stmt α → Tree (Node α)
  | s@(.expression _ e) => .node (.stmt s) [e.tree]
  | .varDecl decl => decl.tree
  | s@(.ret _ value) => .node (.stmt s) (Expr.optionTrees value)
  | s@(.ifElse _ cond whenTrue whenFalse) =>
      .node (.stmt s) (cond.tree :: whenTrue.tree :: Stmt.optionTrees whenFalse)
  | s@(.whileLoop _ cond body) => .node (.stmt s) [cond.tree, body.tree]
  | .block b => b.tree
  | .classDecl decl => decl.tree
  | s@(.raise _ value) => .node (.stmt s) [value.tree]

/-- The trees of some statements. -/
def Stmt.trees {α : Type} : List (Stmt α) → List (Tree (Node α))
  | [] => []
  | s :: ss => s.tree :: Stmt.trees ss

/-- The tree of a statement that may be absent. -/
def Stmt.optionTrees {α : Type} : Option (Stmt α) → List (Tree (Node α))
  | none => []
  | some s => [s.tree]

/-- The tree of a block. -/
def Block.tree {α : Type} : Block α → Tree (Node α)
  | ⟨label, stmts⟩ => .node (.block ⟨label, stmts⟩) (Stmt.trees stmts)

/-- The tree of a method body, if there is one. -/
def Block.bodyTrees {α : Type} : Option (Block α) → List (Tree (Node α))
  | none => []
  | some b => [b.tree]

/-- The tree of a variable declaration. -/
def VarDecl.tree {α : Type} : VarDecl α → Tree (Node α)
  | ⟨label, name, symbol, type, init⟩ =>
      .node (.varDecl ⟨label, name, symbol, type, init⟩) (Expr.optionTrees init)

/-- The trees of some variable declarations. -/
def VarDecl.trees {α : Type} : List (VarDecl α) → List (Tree (Node α))
  | [] => []
  | v :: vs => v.tree :: VarDecl.trees vs

/-- The tree of a method. -/
def MethodDecl.tree {α : Type} : MethodDecl α → Tree (Node α)
  | ⟨label, name, symbol, params, body⟩ =>
      .node (.method ⟨label, name, symbol, params, body⟩)
        (VarDecl.trees params ++ Block.bodyTrees body)

/-- The tree of a type declaration. -/
def ClassDecl.tree {α : Type} : ClassDecl α → Tree (Node α)
  | ⟨label, kind, name, symbol, members⟩ =>
      .node (.classDecl ⟨label, kind, name, symbol, members⟩) (Member.trees members)

/-- The tree of an anonymous class body, if there is one. -/
def ClassDecl.bodyTrees {α : Type} : Option (ClassDecl α) → List (Tree (Node α))
  | none => []
  | some decl => [decl.tree]

/-- The tree of a member. -/
def Member.tree {α : Type} : Member α → Tree (Node α)
  | .field decl => decl.tree
  | .method decl => decl.tree
  | .classDecl decl => decl.tree
  | .initBlock b => b.tree

/-- The trees of some members. -/
def Member.trees {α : Type} : List (Member α) → List (Tree (Node α))
  | [] => []
  | m :: ms => m.tree :: Member.trees ms

end

/-- The tree of a whole unit. -/
def CompilationUnit.tree {α : Type} (unit : CompilationUnit α) : Tree (Node α) :=
  .node (.unit unit) (unit.types.map ClassDecl.tree)

/-- The tree of a node: the node itself, and below it the trees of its children. -/
def Node.tree {α : Type} : Node α → Tree (Node α)
  | .unit u => u.tree
  | .classDecl decl => decl.tree
  | .method decl => decl.tree
  | .varDecl decl => decl.tree
  | .block b => b.tree
  | .stmt (.varDecl decl) => .node (.stmt (.varDecl decl)) [decl.tree]
  | .stmt (.block b) => .node (.stmt (.block b)) [b.tree]
  | .stmt (.classDecl decl) => .node (.stmt (.classDecl decl)) [decl.tree]
  | .stmt s => s.tree
  | .expr e => e.tree

/-- Hands every expression to an action that a walk entering only some nodes meets. -/
def Node.forEachExpr {α : Type} {m : Type → Type} [Monad m] (enter : Node α → Bool)
    (node : Node α) (visit : Expr α → m Unit) : m Unit :=
  node.tree.walkWithin enter fun
    | .expr e => visit e
    | _ => pure ()

/-- The expressions at or below a node that lie in no type declaration below it. -/
def Node.ownExprs {α : Type} (node : Node α) : List (Expr α) :=
  (node.tree.within fun n => !n.isClassDecl).filterMap Node.expr?

end BugPatterns
