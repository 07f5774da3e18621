import BugPatterns.Ast.Basic

/-!
# Nodes

A node is any part of a compilation unit that a walk can meet. A declaration or a block that
stands as a statement is met as itself and not a second time as a statement.

`Node.children` says what lies right below a node, in source order.
-/

namespace BugPatterns

/-- Any part of a compilation unit that a walk can meet. -/
inductive Node (α : Type) where
  | unit (unit : CompilationUnit α)
  | classDecl (decl : ClassDecl α)
  | method (decl : MethodDecl α)
  | varDecl (decl : VarDecl α)
  | block (block : Block α)
  | stmt (stmt : Stmt α)
  | expr (expr : Expr α)

namespace Node

variable {α : Type}

/-- The node a statement is met as. -/
def ofStmt : Stmt α → Node α
  | .varDecl decl => .varDecl decl
  | .block b => .block b
  | .classDecl decl => .classDecl decl
  | s => .stmt s

/-- The node a member is met as. -/
def ofMember : Member α → Node α
  | .field decl => .varDecl decl
  | .method decl => .method decl
  | .classDecl decl => .classDecl decl
  | .initBlock b => .block b

/-- The label of a statement, which is that of what it wraps where it has none of its own. -/
def stmtLabel : Stmt α → α
  | .expression l _ | .ret l _ | .ifElse l .. | .whileLoop l .. | .raise l _ => l
  | .varDecl decl => decl.label
  | .block b => b.label
  | .classDecl decl => decl.label

/-- The label of a node; the unit has none. -/
def label? : Node α → Option α
  | .unit _ => none
  | .classDecl decl => some decl.label
  | .method decl => some decl.label
  | .varDecl decl => some decl.label
  | .block b => some b.label
  | .stmt s => some (stmtLabel s)
  | .expr e => some e.label

/-- The kind of a statement. -/
def stmtKind : Stmt α → NodeKind
  | .expression .. => .expressionStatement
  | .varDecl _ => .varDecl
  | .ret .. => .returnStatement
  | .ifElse .. => .ifStatement
  | .whileLoop .. => .whileStatement
  | .block _ => .block
  | .classDecl decl => .ofClassKind decl.kind
  | .raise .. => .throwStatement

/-- The kind of a node. -/
def kind : Node α → NodeKind
  | .unit _ => .compilationUnit
  | .classDecl decl => .ofClassKind decl.kind
  | .method _ => .method
  | .varDecl _ => .varDecl
  | .block _ => .block
  | .stmt s => stmtKind s
  | .expr e => e.kind

/-- The node is a type declaration. -/
def isClassDecl : Node α → Bool
  | .classDecl _ => true
  | _ => false

/-- The node as an expression. -/
def expr? : Node α → Option (Expr α)
  | .expr e => some e
  | _ => none

/-- The nodes right below a statement. -/
def stmtChildren : Stmt α → List (Node α)
  | .expression _ e => [.expr e]
  | .varDecl decl => [.varDecl decl]
  | .ret _ value => (value.map .expr).toList
  | .ifElse _ cond whenTrue whenFalse =>
      .expr cond :: .ofStmt whenTrue :: (whenFalse.map .ofStmt).toList
  | .whileLoop _ cond body => [.expr cond, .ofStmt body]
  | .block b => [.block b]
  | .classDecl decl => [.classDecl decl]
  | .raise _ value => [.expr value]

/-- The nodes right below an expression. -/
def exprChildren : Expr α → List (Node α)
  | .literal .. | .ident .. => []
  | .select _ target _ _ _ => [.expr target]
  | .call _ callee args _ _ => .expr callee :: args.map .expr
  | .creation _ args body _ _ => args.map .expr ++ (body.map .classDecl).toList
  | .assign _ _ target value _ => [.expr target, .expr value]
  | .binary _ _ lhs rhs _ => [.expr lhs, .expr rhs]
  | .unary _ _ operand _ => [.expr operand]
  | .paren _ inner _ => [.expr inner]
  | .cast _ operand _ => [.expr operand]
  | .conditional _ cond whenTrue whenFalse _ => [.expr cond, .expr whenTrue, .expr whenFalse]
  | .index _ target position _ => [.expr target, .expr position]

/-- The nodes right below a node, in source order. -/
def children : Node α → List (Node α)
  | .unit u => u.types.map .classDecl
  | .classDecl decl => decl.members.map .ofMember
  | .method decl => decl.params.map .varDecl ++ (decl.body.map .block).toList
  | .varDecl decl => (decl.init.map .expr).toList
  | .block b => b.stmts.map .ofStmt
  | .stmt s => stmtChildren s
  | .expr e => exprChildren e

end Node

/-- Hands the nodes right below a node to an action, in source order. -/
def Node.forEachChild {α : Type} {m : Type → Type} [Monad m] (node : Node α)
    (visit : Node α → m Unit) : m Unit :=
  node.children.forM visit

end BugPatterns
